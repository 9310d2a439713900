import Lexeme.Report
import Mathlib.Data.List.TakeWhile

/-!
# Painted text

Painting puts switching sequences into a text, and nothing else. A sequence is an escape, a bracket,
parameters and a final letter; stripping takes sequences out from the left, and at a seam, where no
sequence can go on, it has nothing left over. Main statements: painting adds no line ends, and
painted text is stripped like the text itself.
-/

namespace Lexeme
namespace Ansi

def isParameter (c : Char) : Bool := c.isDigit || c == ';'

theorem afterSequence?_eq_some_iff {s r : List Char} :
    afterSequence? s = some r ↔
      ∃ ps, (∀ c ∈ ps, isParameter c = true) ∧ s = escape :: '[' :: (ps ++ 'm' :: r) := by
  constructor
  · intro h
    unfold afterSequence? at h
    split at h
    · rename_i t
      split at h
      · rename_i hrest
        cases h
        refine ⟨t.takeWhile isParameter, fun c hc => List.mem_takeWhile_imp hc, ?_⟩
        have hsplit : t.takeWhile isParameter ++ 'm' :: r = t := by
          rw [← hrest]
          exact List.takeWhile_append_dropWhile
        rw [hsplit]
        rfl
      · cases h
    · cases h
  · rintro ⟨ps, hps, rfl⟩
    have hparameters : ∀ c ∈ ps, (c.isDigit || c == ';') = true := hps
    have hrest : (ps ++ 'm' :: r).dropWhile (fun c => c.isDigit || c == ';') = 'm' :: r := by
      rw [List.dropWhile_append_of_pos hparameters]
      exact List.dropWhile_cons_of_neg (by decide)
    simp only [escape, afterSequence?, hrest]

def Continues (c : Char) : Prop := c = '[' ∨ isParameter c = true ∨ c = 'm'

instance : DecidablePred Continues := fun c =>
  inferInstanceAs (Decidable (c = '[' ∨ isParameter c = true ∨ c = 'm'))

/-- No sequence can go on from before this text into it. -/
def Seam (s : List Char) : Prop := ∀ c, s.head? = some c → ¬Continues c

theorem seam_nil : Seam [] := nofun

theorem seam_cons {c : Char} (h : ¬Continues c) (s : List Char) : Seam (c :: s) := by
  rintro _ ⟨⟩
  exact h

theorem seam_elim {α : Type} {f : α → List Char} (h : ∀ a, Seam (f a)) (value? : Option α) :
    Seam (value?.elim [] f) := by
  cases value? with
  | none => exact seam_nil
  | some a => exact h a

theorem exists_seam (s : List Char) : ∃ a t, s = a ++ t ∧ escape ∉ a ∧ Seam t := by
  by_cases h : escape ∈ s
  · obtain ⟨a, t, hs, ha⟩ := List.eq_append_cons_of_mem h
    exact ⟨a, escape :: t, hs, ha, seam_cons (by decide) t⟩
  · exact ⟨s, [], (List.append_nil s).symm, h, seam_nil⟩

variable {s t : List Char}

theorem afterSequence?_append (ht : Seam t) (c : Char) (s : List Char) :
    afterSequence? (c :: s ++ t) = (afterSequence? (c :: s)).map (· ++ t) := by
  cases hs : afterSequence? (c :: s) with
  | some r =>
    obtain ⟨ps, hps, heq⟩ := afterSequence?_eq_some_iff.1 hs
    rw [Option.map_some, afterSequence?_eq_some_iff]
    exact ⟨ps, hps, by simp [heq]⟩
  | none =>
    rw [Option.map_none, Option.eq_none_iff_forall_ne_some]
    intro x hx
    obtain ⟨ps, hps, heq⟩ := afterSequence?_eq_some_iff.1 hx
    obtain ⟨rfl, htail⟩ := List.cons.inj heq
    have hbody : s ++ t = ('[' :: ps ++ ['m']) ++ x := by simpa using htail
    -- the rest of the sequence either lies in front of the seam or runs over it
    rcases List.append_eq_append_iff.1 hbody with ⟨a, hrest, rfl⟩ | ⟨a, rfl, rfl⟩
    · cases a with
      | nil =>
        have hsome : afterSequence? (escape :: s) = some [] :=
          afterSequence?_eq_some_iff.2 ⟨ps, hps, by rw [← List.append_nil s, ← hrest]; simp⟩
        rw [hs] at hsome
        cases hsome
      | cons d a =>
        have hd : d ∈ '[' :: ps ++ ['m'] := by
          rw [hrest]
          simp
        have hcontinues : Continues d := by
          simp only [List.cons_append, List.mem_cons, List.mem_append, List.not_mem_nil,
            or_false] at hd
          exact hd.imp_right fun h => h.imp_left (hps d)
        exact ht d rfl hcontinues
    · have hsome : afterSequence? (escape :: (('[' :: ps ++ ['m']) ++ a)) = some a :=
        afterSequence?_eq_some_iff.2 ⟨ps, hps, by simp⟩
      rw [hs] at hsome
      cases hsome

theorem strip_nil : strip [] = [] := by
  rw [strip]
  rfl

/-- Two texts with a seam between them are stripped one by one. -/
theorem strip_append (ht : Seam t) (s : List Char) : strip (s ++ t) = strip s ++ strip t := by
  fun_induction strip s with
  | case1 s r h _ ih =>
    cases s with
    | nil => cases h
    | cons c s =>
      have happend : afterSequence? (c :: s ++ t) = some (r ++ t) := by
        rw [afterSequence?_append ht, h, Option.map_some]
      rw [strip_of_afterSequence? happend, ih]
  | case2 => rw [List.nil_append, List.nil_append]
  | case3 c r h ih =>
    have happend : afterSequence? (c :: (r ++ t)) = none := by
      rw [← List.cons_append, afterSequence?_append ht, h, Option.map_none]
    rw [List.cons_append, strip_cons happend, ih, List.cons_append]

theorem strip_elim_congr {α : Type} {f g : α → List Char} (h : ∀ a, strip (f a) = strip (g a))
    (value? : Option α) : strip (value?.elim [] f) = strip (value?.elim [] g) := by
  cases value? with
  | none => rfl
  | some a => exact h a

theorem strip_cons_of_ne {c : Char} (h : c ≠ escape) (s : List Char) :
    strip (c :: s) = c :: strip s := by
  refine strip_cons (Option.eq_none_iff_forall_ne_some.2 fun r hr => ?_)
  obtain ⟨ps, -, heq⟩ := afterSequence?_eq_some_iff.1 hr
  exact h (List.cons.inj heq).1

theorem strip_space (s : List Char) : strip (' ' :: s) = ' ' :: strip s :=
  strip_cons_of_ne (by decide) s

theorem strip_of_not_mem (h : escape ∉ s) : strip s = s := by
  induction s with
  | nil => exact strip_nil
  | cons c s ih =>
    rw [List.mem_cons, not_or] at h
    rw [strip_cons_of_ne (Ne.symm h.1), ih h.2]

theorem break_not_mem_opening (style : Style) : '\n' ∉ style.opening := by
  cases style <;> decide

theorem count_reopen {opening : List Char} (h : '\n' ∉ opening) (s : List Char) :
    (reopen opening s).count '\n' = s.count '\n' := by
  fun_induction reopen opening s with
  | case1 r ih =>
    have hreset : reset.count '\n' = 0 := by decide
    rw [List.count_append, List.count_append, hreset, List.count_eq_zero.2 h, ih]
    simp
  | case2 c r _ ih => rw [List.count_cons, List.count_cons, ih]
  | case3 => rfl

theorem count_paint (colour : Bool) (style : Style) (s : List Char) :
    (paint colour style s).count '\n' = s.count '\n' := by
  cases colour with
  | false => rfl
  | true =>
    have hopening := break_not_mem_opening style
    have hreset : reset.count '\n' = 0 := by decide
    simp only [paint, if_true, List.count_append, List.count_eq_zero.2 hopening,
      count_reopen hopening, hreset, Nat.zero_add, Nat.add_zero]

theorem reopen_append (opening : List Char) (h : escape ∉ s) (t : List Char) :
    reopen opening (s ++ t) = s ++ reopen opening t := by
  induction s with
  | nil => rfl
  | cons c s ih =>
    rw [List.mem_cons, not_or] at h
    have hread : reopen opening (c :: (s ++ t)) = c :: reopen opening (s ++ t) := by
      rw [reopen]
      rintro r rfl
      exact absurd rfl h.1
    rw [List.cons_append, hread, ih h.2, List.cons_append]

theorem head?_reopen (opening s : List Char) : (reopen opening s).head? = s.head? := by
  fun_cases reopen opening s <;> rfl

theorem Seam.reopen (h : Seam s) (opening : List Char) : Seam (reopen opening s) := by
  intro c hc
  rw [head?_reopen] at hc
  exact h c hc

theorem strip_reopen (style : Style) (s : List Char) :
    strip (reopen style.opening s) = strip s := by
  fun_induction reopen style.opening s with
  | case1 r ih =>
    have hreset : strip (escape :: '[' :: '0' :: 'm' :: r) = strip r := strip_reset r
    rw [List.append_assoc, strip_reset, strip_opening, ih]
    exact hreset.symm
  | case2 c r _ ih =>
    -- nothing is put in up to the next escape, and there is a seam in front of that
    obtain ⟨a, t, rfl, ha, ht⟩ := exists_seam r
    have ht' : Seam (reopen style.opening t) := ht.reopen style.opening
    rw [reopen_append style.opening ha, strip_append ht', strip_append ht] at ih
    have hrest : strip (reopen style.opening t) = strip t := List.append_cancel_left ih
    rw [reopen_append style.opening ha, ← List.cons_append, ← List.cons_append,
      strip_append ht', strip_append ht, hrest]
  | case3 => rfl

/-- Painted text in front of a seam is stripped like the text itself. -/
theorem strip_paint (colour : Bool) (style : Style) (s : List Char) (ht : Seam t) :
    strip (paint colour style s ++ t) = strip (s ++ t) := by
  cases colour with
  | false => rfl
  | true =>
    have hreset : Seam (reset ++ t) := seam_cons (by decide) _
    rw [paint, if_pos rfl, List.append_assoc, List.append_assoc, strip_opening,
      strip_append hreset, strip_reopen, strip_reset, strip_append ht]

end Ansi
end Lexeme
