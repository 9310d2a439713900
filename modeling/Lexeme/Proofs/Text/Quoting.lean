import Lexeme.Text.Quoting
import Mathlib.Data.List.Forall2

/-!
# Reading quoted text back

Which texts a quoting reads, told by the pieces it takes one at a time, and what follows for whole
strings: writing is lossless and closes itself. The exact reader takes just what was written.
-/

namespace Lexeme
namespace Quoting

variable {q : Quoting} {R : List Char → Char → Prop}

/-- `R p c` says that the piece `p` spells the character `c`. The reader goes by `R` if it takes the
pieces of `R` off the front and no others. -/
def GoesBy (q : Quoting) (R : List Char → Char → Prop) : Prop :=
  ∀ s c r, q.token? s = some (c, r) ↔ ∃ p, R p c ∧ s = p ++ r

theorem exists_spelling_of_body? (hq : q.GoesBy R) {s t rest : List Char}
    (h : q.body? s = some (t, rest)) :
    ∃ ps, List.Forall₂ R ps t ∧ s = ps.flatten ++ '"' :: rest := by
  induction hn : s.length using Nat.strongRecOn generalizing s t with
  | ind n ih =>
    cases hs : q.token? s with
    | none =>
      rw [body?_of_token?_none hs] at h
      obtain ⟨rfl, rfl⟩ := close?_eq_some_iff.1 h
      exact ⟨[], .nil, rfl⟩
    | some cr =>
      obtain ⟨c, r⟩ := cr
      rw [body?_of_token? hs] at h
      obtain ⟨⟨t', rest'⟩, ht, he⟩ := Option.map_eq_some_iff.1 h
      cases he
      have hr : r.length < n := hn ▸ q.length_of_token? hs
      obtain ⟨p, hp, rfl⟩ := (hq s c r).1 hs
      obtain ⟨ps, hps, rfl⟩ := ih r.length hr ht rfl
      exact ⟨p :: ps, .cons hp hps, by simp⟩

theorem body?_spelling (hq : q.GoesBy R) {ps : List (List Char)} {t : List Char}
    (h : List.Forall₂ R ps t) (rest : List Char) :
    q.body? (ps.flatten ++ '"' :: rest) = some (t, rest) := by
  induction h with
  | nil => exact q.body?_quote rest
  | @cons p c ps t hp _ ih =>
    have ht : q.token? (p ++ (ps.flatten ++ '"' :: rest)) = some (c, ps.flatten ++ '"' :: rest) :=
      (hq _ _ _).2 ⟨p, hp, rfl⟩
    rw [List.flatten_cons, List.append_assoc, body?_of_token? ht, ih]
    rfl

/-- What a reader takes is an opening quote, pieces one after the other, and a closing quote. -/
theorem read?_eq_some_iff (hq : q.GoesBy R) {s t rest : List Char} :
    q.read? s = some (t, rest) ↔
      ∃ ps, List.Forall₂ R ps t ∧ s = '"' :: (ps.flatten ++ '"' :: rest) := by
  constructor
  · intro h
    unfold read? at h
    split at h
    · obtain ⟨ps, hps, rfl⟩ := exists_spelling_of_body? hq h
      exact ⟨ps, hps, rfl⟩
    · cases h
  · rintro ⟨ps, hps, rfl⟩
    exact body?_spelling hq hps rest

theorem GoesBy.forall₂_piece (hq : q.GoesBy R) (t : List Char) :
    List.Forall₂ R (t.map q.piece) t := by
  induction t with
  | nil => exact .nil
  | cons c t ih =>
    obtain ⟨p, hp, he⟩ := (hq _ c []).1 (q.token?_piece c [])
    rw [List.append_nil, List.append_nil] at he
    exact .cons (he ▸ hp) ih

theorem flatMap_piece_inj {s t : List Char} (h : s.flatMap q.piece = t.flatMap q.piece) :
    s = t := by
  have hs := q.body?_flatMap s []
  rw [h, q.body?_flatMap] at hs
  simpa using hs.symm

theorem exact_goesBy (q : Quoting) : q.exact.GoesBy fun p c => p = q.piece c := by
  intro s c r
  constructor
  · intro h
    have hs : q.piece c ++ r = s := by
      simpa using (Option.filter_eq_some_iff.1 h).2
    exact ⟨q.piece c, rfl, hs.symm⟩
  · rintro ⟨p, rfl, rfl⟩
    exact q.exact.token?_piece c r

theorem forall₂_piece_iff {ps : List (List Char)} {t : List Char} :
    List.Forall₂ (fun p c => p = q.piece c) ps t ↔ ps = t.map q.piece := by
  constructor
  · intro h
    induction h with
    | nil => rfl
    | cons hp _ ih => rw [hp, ih, List.map_cons]
  · rintro rfl
    exact q.exact_goesBy.forall₂_piece t

theorem exact_read?_eq_some_iff {s t rest : List Char} :
    q.exact.read? s = some (t, rest) ↔ s = q.write t ++ rest := by
  rw [read?_eq_some_iff q.exact_goesBy]
  simp only [forall₂_piece_iff, exists_eq_left, ← List.flatMap_def, write, List.cons_append,
    List.append_assoc, List.nil_append]

def unquote? (q : Quoting) (s : String) : Option (String × String) :=
  (q.read? s.toList).map fun (t, rest) => (String.ofList t, String.ofList rest)

theorem unquote?_eq_some_iff {s t rest : String} :
    q.unquote? s = some (t, rest) ↔ q.read? s.toList = some (t.toList, rest.toList) := by
  constructor
  · intro h
    obtain ⟨⟨u, r⟩, hu, he⟩ := Option.map_eq_some_iff.1 h
    cases he
    simpa using hu
  · intro h
    simp [unquote?, h]

theorem unquote?_quote (q : Quoting) (s rest : String) :
    q.unquote? (q.quote s ++ rest) = some (s, rest) := by
  simp [unquote?_eq_some_iff]

/-- Quoted text shows where it ends, so what stands behind it makes no difference. -/
theorem quote_append_inj (q : Quoting) {s t x y : String} :
    q.quote s ++ x = q.quote t ++ y ↔ s = t ∧ x = y := by
  constructor
  · intro h
    have hr := congrArg q.unquote? h
    rw [unquote?_quote, unquote?_quote] at hr
    simpa using hr
  · rintro ⟨rfl, rfl⟩
    rfl

theorem exact_unquote?_eq_some_iff {s t rest : String} :
    q.exact.unquote? s = some (t, rest) ↔ s = q.quote t ++ rest := by
  rw [unquote?_eq_some_iff, exact_read?_eq_some_iff, ← q.toList_quote t, ← String.toList_append,
    String.toList_inj]

end Quoting

theorem Escapes.forall_mem_piece {x : Escapes} {P : Char → Prop} {c : Char} (hbackslash : P '\\')
    (hletter : ∀ e, x.letter? c = some e → P e) (hcode : ∀ e, x.code? c = some e → ∀ d ∈ e, P d)
    (hbare : x.letter? c = none → x.code? c = none → P c) : ∀ d ∈ x.piece c, P d := by
  unfold piece
  split
  · rename_i e he
    exact List.forall_mem_cons.2 ⟨hbackslash, by simpa using hletter e he⟩
  · rename_i hl
    split
    · rename_i e he
      exact List.forall_mem_cons.2 ⟨hbackslash, hcode e he⟩
    · rename_i hc
      simpa using hbare hl hc

/-- What is taken off the front is a character that may stand bare, or an escape of either kind. -/
theorem Escapes.token?_eq_some_iff {x : Escapes} {s r : List Char} {c : Char} :
    x.token? s = some (c, r) ↔
      (c ≠ '\\' ∧ (c ≠ '"' ∧ x.isBare c = true) ∧ s = c :: r) ∨
      (∃ e, x.ofLetter? e = some c ∧ s = '\\' :: e :: r) ∨
      ∃ e t, x.ofLetter? e = none ∧ x.ofCode? (e :: t) = some (c, r) ∧ s = '\\' :: e :: t := by
  constructor
  · intro h
    rcases s with _ | ⟨d, s⟩
    · cases h
    · by_cases hd : d = '\\'
      · subst hd
        rcases s with _ | ⟨e, t⟩
        · simp [token?, escape?] at h
        · cases he : x.ofLetter? e with
          | some a =>
            rw [x.token?_letter he] at h
            cases h
            exact .inr (.inl ⟨e, he, rfl⟩)
          | none =>
            rw [x.token?_code he] at h
            exact .inr (.inr ⟨e, t, he, h, rfl⟩)
      · rw [token?, if_neg hd] at h
        split at h
        · rename_i hc
          cases h
          exact .inl ⟨hd, hc, rfl⟩
        · cases h
  · rintro (⟨hb, hc, rfl⟩ | ⟨e, he, rfl⟩ | ⟨e, t, he, ht, rfl⟩)
    · exact x.token?_bare hb hc r
    · exact x.token?_letter he r
    · exact (x.token?_code he t).trans ht

end Lexeme
