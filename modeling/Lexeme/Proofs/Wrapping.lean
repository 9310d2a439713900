import Lexeme.Token

/-!
# Wrapped tokens

A wrapper hands four answers on and settles the other two by the tag. Main statement: a token that
settles them so itself looks the same through any wrappers, and no other token looks the same
through even one. So a consumer of wrapped tokens reads what it would read of the tokens themselves,
if these all settle them so.
-/

namespace Lexeme
namespace View

/-- Whether the last two answers follow from the tag. -/
def SettledByTag (v : View) : Prop :=
  v.isEof = decide (v.tag = .eof) ∧ v.isError = decide (v.tag = .error)

def token (v : View) : Token := ⟨v.tag, v.position, v.line, v.text⟩

theorem wrap_eq (w : Wrapper) (v : View) : v.wrap w = ofToken v.token := rfl

theorem ofToken_token_eq_self_iff {v : View} : ofToken v.token = v ↔ v.SettledByTag := by
  constructor
  · intro h
    exact ⟨(congrArg isEof h).symm, (congrArg isError h).symm⟩
  · rintro ⟨he, hf⟩
    obtain ⟨tag, position, line, text, e, f⟩ := v
    obtain rfl : e = decide (tag = .eof) := he
    obtain rfl : f = decide (tag = .error) := hf
    rfl

@[simp] theorem wrapAll_nil (v : View) : v.wrapAll [] = v := rfl

/-- Only the outermost wrapper is seen. -/
theorem wrapAll_cons (w : Wrapper) (ws : List Wrapper) (v : View) :
    v.wrapAll (w :: ws) = ofToken v.token := by
  induction ws generalizing w with
  | nil => exact wrap_eq w v
  | cons w' ws ih =>
    have hs : v.wrapAll (w :: w' :: ws) = (v.wrapAll (w' :: ws)).wrap w := rfl
    rw [hs, ih, wrap_ofToken]

theorem wrapAll_eq_self_iff {ws : List Wrapper} {v : View} :
    v.wrapAll ws = v ↔ ws = [] ∨ v.SettledByTag := by
  cases ws with
  | nil => simp
  | cons w ws => simp [wrapAll_cons, ofToken_token_eq_self_iff]

/-- Through any wrappers a token gives the same four values, and settles by its tag whether it ends
the input or reports a fault. So all its answers are the same just when nothing is around it or it
settles them so itself. -/
theorem answers_of_wrapAll (ws : List Wrapper) (v : View) :
    (v.wrapAll ws).tag = v.tag ∧ (v.wrapAll ws).position = v.position ∧
    (v.wrapAll ws).line = v.line ∧ (v.wrapAll ws).text = v.text ∧
    (v.wrapAll ws).isEof = (if ws = [] then v.isEof else decide (v.tag = .eof)) ∧
    (v.wrapAll ws).isError = (if ws = [] then v.isError else decide (v.tag = .error)) ∧
    (v.wrapAll ws = v ↔ ws = [] ∨
      v.isEof = decide (v.tag = .eof) ∧ v.isError = decide (v.tag = .error)) := by
  refine ⟨?_, ?_, ?_, ?_, ?_, ?_, wrapAll_eq_self_iff⟩
  all_goals
    cases ws with
    | nil => rfl
    | cons w ws =>
      rw [wrapAll_cons]
      rfl

/-- A token that ends the input for reasons of its own no longer does so behind a reference. -/
theorem exists_wrapAll_ne :
    ¬∀ (ws : List Wrapper) (v : View), v.wrapAll ws = v := by
  intro h
  have hv := h [.reference] ⟨⟨5⟩, 3, 1, "end", true, false⟩
  exact absurd hv (by decide)

theorem settledByTag_ofToken (t : Token) : (ofToken t).SettledByTag := ⟨rfl, rfl⟩

/-- A consumer that asks wrapped tokens reads what it would read of the tokens themselves, if all
that it reads of these settle the two answers by their tags. -/
theorem read_map_wrapAll (ws : List Wrapper) {vs : List View}
    (h : ∀ v ∈ (Stream.read vs).1, v.SettledByTag) :
    Stream.read (vs.map (wrapAll ws)) = Stream.read vs := by
  induction vs with
  | nil => rfl
  | cons v vs ih =>
    rw [Stream.read_cons] at h
    rw [List.map_cons, Stream.read_cons, Stream.read_cons]
    cases hv : Stream.ending? v with
    | some e =>
      rw [hv, Option.elim_some, List.forall_mem_singleton] at h
      rw [wrapAll_eq_self_iff.2 (.inr h), hv, Option.elim_some, Option.elim_some]
    | none =>
      rw [hv, Option.elim_none, List.forall_mem_cons] at h
      rw [wrapAll_eq_self_iff.2 (.inr h.1), hv, Option.elim_none, Option.elim_none, ih h.2]

theorem read_map_wrapAll_ofToken (ws : List Wrapper) (ts : List Token) :
    Stream.read ((ts.map ofToken).map (wrapAll ws)) = Stream.read (ts.map ofToken) := by
  refine read_map_wrapAll ws fun v hv => ?_
  obtain ⟨t, -, rfl⟩ := List.mem_map.1 ((Stream.isPrefix_read _).subset hv)
  exact settledByTag_ofToken t

/-- A stream that such a token ends is read past it when its tokens are wrapped. -/
example :
    let last : View := ⟨⟨5⟩, 3, 1, "end", true, false⟩
    let next : View := .ofToken ⟨⟨6⟩, 6, 1, "more"⟩
    Stream.read [last, next] = ([last], .eof) ∧
      (Stream.read ([last, next].map (wrap .reference))).2 = .exhausted := by
  decide

end View
end Lexeme
