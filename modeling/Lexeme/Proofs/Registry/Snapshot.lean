import Lexeme.Proofs.Registry.Registration
import Mathlib.Data.Finset.Card
import Std.Data.String.ToNat

/-!
# What is known of the names

The snapshot holds all there is to know of the names, and the other questions agree with it. Tags
are only ever added. Main statement: after any run of registrations the snapshot is the one
ascending list of its entries, and has an entry for each reserved tag and for each further tag that
was given a name.
-/

namespace Lexeme

theorem Tag.digits_inj {t u : Tag} (h : t.digits = u.digits) : t = u :=
  Tag.value_inj.1 (UInt32.toNat_inj.1 (Nat.repr_inj.1 h))

namespace Registry

theorem fallback_inj {t u : Tag} (h : fallback t = fallback u) : t = u :=
  Tag.digits_inj ((String.append_right_inj _).1 ((String.append_left_inj _).1 h))

section

variable {r : Registry} {t u : Tag} {name : String}

theorem contains_iff : r.contains t = true ↔ ∃ name, (t, name) ∈ r.snapshot := by
  simp only [contains_eq_isSome, Option.isSome_iff_exists, mem_snapshot_iff]

theorem nameOf_of_mem_snapshot (h : (t, name) ∈ r.snapshot) : r.nameOf t = name := by
  simp [nameOf, mem_snapshot_iff.1 h]

theorem nameOf_of_not_contains (h : r.contains t = false) : r.nameOf t = fallback t := by
  rw [contains_eq_isSome, Option.isSome_eq_false_iff, Option.isNone_iff_eq_none] at h
  simp [nameOf, h]

/-- However the entries come, there is one way to bring them in ascending order. -/
theorem eq_snapshot_iff {entries : List (Tag × String)} :
    entries = r.snapshot ↔
      entries.Perm r.snapshot ∧ entries.Pairwise fun a b => a.1.value ≤ b.1.value := by
  have hsorted : r.snapshot.Pairwise fun a b => a.1.value ≤ b.1.value :=
    r.pairwise_snapshot.imp UInt32.le_of_lt
  constructor
  · rintro rfl
    exact ⟨.refl _, hsorted⟩
  · rintro ⟨hp, hs⟩
    refine hp.eq_of_pairwise ?_ hs hsorted
    -- two entries of one tag are one entry
    rintro ⟨a, m⟩ ⟨b, n⟩ ha hb hab hba
    obtain rfl : a = b := Tag.value_inj.1 (UInt32.le_antisymm hab hba)
    have hm := mem_snapshot_iff.1 (hp.mem_iff.1 ha)
    have hn := mem_snapshot_iff.1 hb
    rw [hm] at hn
    rw [Option.some.inj hn]

theorem contains_store : (r.store t name).contains u = true ↔ t = u ∨ r.contains u = true := by
  rw [contains_eq_isSome, contains_eq_isSome, getElem?_names_store]
  by_cases h : t = u <;> simp [h]

theorem contains_register :
    (r.register t name).registry.contains u = true ↔
      r.contains u = true ∨ t = u ∧ r.config.keeps u = false := by
  have h := r.registers t name
  generalize r.register t name = s at h
  cases h with
  | kept hk => grind
  | fresh hk => grind [contains_store]
  | same hk hn => grind [contains_eq_isSome]
  | renamed hk => grind [contains_store]
  | refused hk hn => grind [contains_eq_isSome]

theorem contains_answer (q : Request) (h : r.contains t = true) :
    (r.answer q).registry.contains t = true := by
  cases q with
  | register u name => exact contains_register.2 (.inl h)
  | _ => exact h

/-- No tag loses its name. -/
theorem contains_run (qs : List Request) (h : r.contains t = true) :
    (r.run qs).2.contains t = true := by
  induction qs generalizing r with
  | nil => exact h
  | cons q qs ih => exact ih (contains_answer q h)

theorem contains_namings (calls : List (Tag × String)) :
    (r.run (calls.map .naming)).2.contains t = true ↔
      r.contains t = true ∨ t ∈ calls.map Prod.fst ∧ r.config.keeps t = false := by
  induction calls generalizing r with
  | nil => simp
  | cons call calls ih =>
    rw [List.map_cons, run_cons, ih, answer_config]
    have hs : (r.answer (.naming call)).registry.contains t = true ↔
        r.contains t = true ∨ call.1 = t ∧ r.config.keeps t = false := contains_register
    rw [hs, List.map_cons, List.mem_cons]
    grind

end

theorem snapshot_new (c : Config) : (new c).snapshot = reservedNames := by
  have h : (Std.ExtTreeMap.ofList reservedNames).toList = reservedNames := by decide
  exact (snapshot_eq_toList _).trans h

theorem contains_new {c : Config} {t : Tag} : (new c).contains t = true ↔ t.value ≤ 2 := by
  rw [contains_eq_isSome, getElem?_names_new]
  split <;> simp_all

theorem contains_after_namings {c : Config} {calls : List (Tag × String)} {t : Tag} :
    ((new c).run (calls.map .naming)).2.contains t = true ↔
      t.value ≤ 2 ∨ t ∈ calls.map Prod.fst := by
  have hc : (new c).config = c := rfl
  have hk : c.keeps t = true → t.value ≤ 2 := fun h => (Config.keeps_iff.1 h).2
  rw [contains_namings, contains_new, hc]
  grind

def tags (r : Registry) : Finset Tag := (r.snapshot.map Prod.fst).toFinset

theorem mem_tags {r : Registry} {t : Tag} : t ∈ r.tags ↔ r.contains t = true := by
  simp [tags, contains_iff]

theorem nodup_tags_snapshot (r : Registry) : (r.snapshot.map Prod.fst).Nodup := by
  rw [List.Nodup, List.pairwise_map]
  refine r.pairwise_snapshot.imp ?_
  intro a b hlt heq
  rw [heq] at hlt
  exact UInt32.lt_irrefl _ hlt

theorem nodup_snapshot (r : Registry) : r.snapshot.Nodup :=
  r.nodup_tags_snapshot.of_map _

theorem card_tags (r : Registry) : r.tags.card = r.size := by
  rw [tags, List.toFinset_card_of_nodup r.nodup_tags_snapshot, List.length_map, length_snapshot]

def reservedTags : Finset Tag := {.eof, .error, .lastReserved}

theorem mem_reservedTags {t : Tag} : t ∈ reservedTags ↔ t.value ≤ 2 := by
  simp [reservedTags, Tag.le_two_iff]

theorem card_reservedTags : reservedTags.card = 3 := by decide

def furtherTags (calls : List (Tag × String)) : Finset Tag :=
  (calls.map Prod.fst).toFinset.filter fun t => 2 < t.value

theorem tags_after_namings (c : Config) (calls : List (Tag × String)) :
    ((new c).run (calls.map .naming)).2.tags = reservedTags ∪ furtherTags calls := by
  ext t
  rw [mem_tags, contains_after_namings, Finset.mem_union, mem_reservedTags, furtherTags,
    Finset.mem_filter, List.mem_toFinset, ← UInt32.not_le]
  grind

theorem size_after_namings (c : Config) (calls : List (Tag × String)) :
    ((new c).run (calls.map .naming)).2.size = 3 + (furtherTags calls).card := by
  have hd : Disjoint reservedTags (furtherTags calls) := by
    rw [Finset.disjoint_left]
    intro t ht hf
    rw [mem_reservedTags] at ht
    exact UInt32.not_le.2 (Finset.mem_filter.1 hf).2 ht
  rw [← card_tags, tags_after_namings, Finset.card_union_of_disjoint hd, card_reservedTags]

/-- What the questions tell after any run of registrations: one ascending list of entries, however
they come; as many as there are reserved tags and further tags that were given names; and no tag
ever without the name that the list has for it. -/
theorem observers_after_namings (c : Config) (calls : List (Tag × String)) :
    let r := ((new c).run (calls.map .naming)).2
    (r.snapshot.Pairwise fun a b => a.1.value < b.1.value) ∧
    (∀ entries, entries = r.snapshot ↔
      entries.Perm r.snapshot ∧ entries.Pairwise fun a b => a.1.value ≤ b.1.value) ∧
    r.size = r.snapshot.length ∧
    r.size = 3 + ((calls.map Prod.fst).toFinset.filter fun t => 2 < t.value).card ∧
    (∀ t, r.contains t = true ↔ ∃ name, (t, name) ∈ r.snapshot) ∧
    (∀ t name, (t, name) ∈ r.snapshot → r.nameOf t = name) ∧
    (∀ t, r.contains t = false → r.nameOf t = "Unknown Item (" ++ t.value.toNat.repr ++ ")") ∧
    (∀ t u, r.contains t = false → r.contains u = false → r.nameOf t = r.nameOf u → t = u) ∧
    (∀ t, t.value ≤ 2 → r.contains t = true) ∧
    r.isEmpty = false ∧
    ∀ qs t, r.contains t = true → (r.run qs).2.contains t = true := by
  intro r
  have hsize : r.size = 3 + (furtherTags calls).card := size_after_namings c calls
  refine ⟨r.pairwise_snapshot, fun entries => eq_snapshot_iff, r.length_snapshot.symm, hsize,
    fun t => contains_iff, fun t name => nameOf_of_mem_snapshot,
    fun t => nameOf_of_not_contains, ?_, fun t ht => contains_after_namings.2 (.inl ht), ?_,
    fun qs t => contains_run qs⟩
  · intro t u ht hu h
    rw [nameOf_of_not_contains ht, nameOf_of_not_contains hu] at h
    exact fallback_inj h
  · have hne : r.names.size ≠ 0 := by
      rw [size] at hsize
      omega
    simp [isEmpty, Std.ExtTreeMap.isEmpty_eq_size_beq_zero, hne]

end Registry
end Lexeme
