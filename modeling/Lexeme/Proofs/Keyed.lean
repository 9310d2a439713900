import Std.Data.ExtTreeMap

/-!
# Lists of keyed values

What a list of pairs holds for a key: nothing, one value, or many in their order. A map made of the
list keeps the last of them.
-/

namespace Lexeme

section

variable {α β γ : Type} [DecidableEq α] {k : α} {v : β} {entries : List (α × β)}

/-- The values of a key, in their order. -/
def valuesFor (k : α) (entries : List (α × β)) : List β :=
  (entries.filter fun e => e.1 = k).map fun e => e.2

@[simp] theorem valuesFor_nil (k : α) : valuesFor k ([] : List (α × β)) = [] := rfl

@[simp] theorem valuesFor_cons (k : α) (e : α × β) (entries : List (α × β)) :
    valuesFor k (e :: entries) =
      if e.1 = k then e.2 :: valuesFor k entries else valuesFor k entries := by
  by_cases h : e.1 = k <;> simp [valuesFor, h]

theorem mem_valuesFor : v ∈ valuesFor k entries ↔ (k, v) ∈ entries := by
  simp [valuesFor]

theorem lookup_eq_head? (k : α) (entries : List (α × β)) :
    entries.lookup k = (valuesFor k entries).head? := by
  induction entries with
  | nil => rfl
  | cons e entries ih =>
    rw [List.lookup_cons, ih, valuesFor_cons]
    by_cases h : e.1 = k
    · rw [if_pos h, beq_iff_eq.2 h.symm, List.head?_cons]
    · rw [if_neg h, beq_eq_false_iff_ne.2 (Ne.symm h)]

theorem valuesFor_map (f : β → γ) (k : α) (entries : List (α × β)) :
    valuesFor k (entries.map fun e => (e.1, f e.2)) = (valuesFor k entries).map f := by
  simp [valuesFor, List.filter_map, Function.comp_def]

theorem valuesFor_eq_toList {value? : Option β} (hn : (entries.map Prod.fst).Nodup)
    (h : ∀ v, (k, v) ∈ entries ↔ value? = some v) : valuesFor k entries = value?.toList := by
  have hlen : (valuesFor k entries).length ≤ 1 := by
    rw [valuesFor, List.length_map, ← List.countP_eq_length_filter]
    have hcount := List.nodup_iff_count.1 hn k
    rwa [List.count, List.countP_map, List.countP_congr (q := fun e => e.1 = k)] at hcount
    simp
  have hmem (v : β) : v ∈ valuesFor k entries ↔ value? = some v := mem_valuesFor.trans (h v)
  match hv : valuesFor k entries, hlen with
  | [], _ =>
    have hnone : value? = none := Option.eq_none_iff_forall_ne_some.2 fun v hs => by
      simpa [hv] using (hmem v).2 hs
    rw [hnone]
    rfl
  | [v], _ =>
    have hsome : value? = some v := (hmem v).1 (by simp [hv])
    rw [hsome]
    rfl

end

section

variable {α β : Type} [DecidableEq α] [Ord α] [Std.TransOrd α] [Std.LawfulEqOrd α]

theorem valuesFor_toList (k : α) (m : Std.ExtTreeMap α β) :
    valuesFor k m.toList = m[k]?.toList := by
  refine valuesFor_eq_toList ?_ fun v => Std.ExtTreeMap.mem_toList_iff_getElem?_eq_some
  rw [Std.ExtTreeMap.map_fst_toList_eq_keys]
  exact Std.ExtTreeMap.nodup_keys

theorem getElem?_insertMany (k : α) (m : Std.ExtTreeMap α β) (entries : List (α × β)) :
    (m.insertMany entries)[k]? = (valuesFor k entries).getLast?.or m[k]? := by
  induction entries generalizing m with
  | nil => simp
  | cons e entries ih =>
    rw [Std.ExtTreeMap.insertMany_cons, ih, Std.ExtTreeMap.getElem?_insert, valuesFor_cons]
    by_cases h : e.1 = k
    · cases hl : (valuesFor k entries).getLast? <;> simp [h, List.getLast?_cons, hl]
    · simp [h]

theorem getElem?_ofList (k : α) (entries : List (α × β)) :
    (Std.ExtTreeMap.ofList entries)[k]? = (valuesFor k entries).getLast? := by
  rw [Std.ExtTreeMap.ofList_eq_insertMany_empty, getElem?_insertMany]
  simp

end

end Lexeme
