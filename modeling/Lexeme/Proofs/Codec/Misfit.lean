import Lexeme.Proofs.Codec.Accepted

/-!
# Which fault is found

Main statement: of an object whose values do not all fit, the least key with a value that does not
fit decides the error; where all fit, the first field that is missing. Of an array the first
element that is missing or does not fit decides, and only then its length.
-/

namespace Lexeme

theorem exists_first_iff (P Q : Nat → Prop) (n : Nat) :
    (∃ i, n ≤ i ∧ P i ∧ ∀ k, n ≤ k → k < i → Q k) ↔
      P n ∨ Q n ∧ ∃ i, n + 1 ≤ i ∧ P i ∧ ∀ k, n + 1 ≤ k → k < i → Q k := by
  constructor
  · rintro ⟨i, hi, hP, hQ⟩
    rcases Nat.eq_or_lt_of_le hi with rfl | hlt
    · exact .inl hP
    · exact .inr ⟨hQ n (Nat.le_refl n) hlt, i, hlt, hP, fun k hk => hQ k (Nat.le_of_succ_le hk)⟩
  · rintro (hP | ⟨hn, i, hi, hP, hQ⟩)
    · exact ⟨n, Nat.le_refl n, hP, fun k hk hlt => absurd hlt (Nat.not_lt_of_le hk)⟩
    · refine ⟨i, Nat.le_of_succ_le hi, hP, fun k hk hlt => ?_⟩
      rcases Nat.eq_or_lt_of_le hk with rfl | hk
      · exact hn
      · exact hQ k hk hlt

namespace Json

inductive NotBelow (limit : Nat) (expected : Expected) (j : Json) : DecodeError → Prop
  | kind (h : ∀ i, j.found ≠ .integer i) : NotBelow limit expected j (.wrongKind j.found expected)
  | range {i : Int} (h : j.found = .integer i) (hi : i < 0 ∨ limit ≤ i) :
    NotBelow limit expected j (.outOfRange i expected)

theorem natBelow_eq_error_iff {limit : Nat} {expected : Expected} {j : Json} {e : DecodeError} :
    j.natBelow limit expected = .error e ↔ j.NotBelow limit expected e := by
  rw [natBelow]
  constructor
  · intro h
    split at h
    · rename_i i hi
      split at h
      · cases h
      · cases h
        exact .range hi (by omega)
    · cases h
      rename_i hkind
      exact .kind hkind
  · rintro (hkind | ⟨hi, hrange⟩)
    · split
      · rename_i i hi
        exact absurd hi (hkind i)
      · rfl
    · rw [hi]
      exact if_neg (by omega)

theorem fill_eq_error_iff {α : Type} {field : String} {place : Option α}
    {read : Except DecodeError α} {e : DecodeError} (h : place.isSome = false) :
    fill field place read = .error e ↔ read = .error e := by
  rw [fill, h]
  exact map_eq_error_iff

theorem isSome_get?_iff {key : String} {ms : List (String × Json)} :
    ((object ms).get? key).isSome ↔ ∃ j, (key, j) ∈ ms := by
  rw [get?, List.lookup_isSome_iff]
  simp

end Json

namespace Token

/-- Why a value cannot be that of a field. -/
def Misfit (field : String) (j : Json) (e : DecodeError) : Prop :=
  field = "item_type" ∧ j.NotBelow 4294967296 .tag e ∨
  (field = "pos" ∨ field = "line") ∧ j.NotBelow 18446744073709551616 .offset e ∨
  field = "value" ∧ (∀ s, j ≠ .string s) ∧ e = .wrongKind j.found .text

def Fits (field : String) (j : Json) : Prop := ∀ e, ¬Misfit field j e

section

variable {j : Json} {e : DecodeError}

theorem misfit_tag_iff : Misfit "item_type" j e ↔ (decode j : Except _ Tag) = .error e := by
  simp [Misfit, decode, map_eq_error_iff, Json.natBelow_eq_error_iff]

theorem misfit_position_iff : Misfit "pos" j e ↔ j.offset = .error e := by
  simp [Misfit, Json.offset, map_eq_error_iff, Json.natBelow_eq_error_iff]

theorem misfit_line_iff : Misfit "line" j e ↔ j.offset = .error e := by
  simp [Misfit, Json.offset, map_eq_error_iff, Json.natBelow_eq_error_iff]

theorem misfit_text_iff : Misfit "value" j e ↔ j.text = .error e := by
  cases j <;> simp [Misfit, Json.text, eq_comm]

theorem fits_of_not_mem {key : String} (h : key ∉ keys) (j : Json) : Fits key j := by
  rw [mem_keys_iff, not_or, not_or, not_or] at h
  simp [Fits, Misfit, h]

theorem misfit_value {field : String} : Misfit field j.value e ↔ Misfit field j e := by
  have htext : (∀ s, j.value ≠ .string s) ↔ ∀ s, j ≠ .string s := by
    cases j <;> simp [Json.value]
  simp only [Misfit, ← Json.natBelow_eq_error_iff, Json.natBelow_value, Json.found_value, htext]

end

def Draft.has (d : Draft) (key : String) : Bool :=
  if key = "item_type" then d.tag.isSome
  else if key = "pos" then d.position.isSome
  else if key = "line" then d.line.isSome
  else if key = "value" then d.text.isSome
  else false

theorem Draft.put_eq_error_iff {d : Draft} {key : String} {j : Json} {e : DecodeError}
    (h : d.has key = false) : d.put key j = .error e ↔ Misfit key j e := by
  by_cases hkey : key ∈ keys
  · rcases mem_keys_iff.1 hkey with rfl | rfl | rfl | rfl
    all_goals
      simp only [has, put, reduceIte, String.reduceEq] at h ⊢
      rw [map_eq_error_iff, Json.fill_eq_error_iff h]
    · exact misfit_tag_iff.symm
    · exact misfit_position_iff.symm
    · exact misfit_line_iff.symm
    · exact misfit_text_iff.symm
  · have hput : d.put key j = .ok d := skips d key j hkey
    simp [hput, fits_of_not_mem hkey j e]

theorem Draft.has_put {d next : Draft} {key : String} {j : Json} (h : d.put key j = .ok next)
    (k : String) : next.has k = (d.has k || decide (k = key ∧ key ∈ keys)) := by
  by_cases hkey : key ∈ keys
  · rcases mem_keys_iff.1 hkey with rfl | rfl | rfl | rfl
    all_goals
      obtain ⟨place, hplace, rfl⟩ := map_eq_ok_iff.1 h
      obtain ⟨-, a, -, rfl⟩ := fill_eq_ok_iff.1 hplace
      grind [has]
  · have hput : d.put key j = .ok d := skips d key j hkey
    obtain rfl : d = next := Except.ok.inj (hput.symm.trans h)
    simp [hkey]

theorem Draft.has_putAll {d last : Draft} {ms : List (String × Json)}
    (h : Json.putAll put d ms = .ok last) {key : String} (hkey : key ∈ keys) :
    last.has key = true ↔ d.has key = true ∨ ∃ j, (key, j) ∈ ms := by
  induction ms generalizing d with
  | nil =>
    cases h
    simp
  | cons m ms ih =>
    rw [Json.putAll_cons] at h
    obtain ⟨next, hnext, hlast⟩ := bind_eq_ok_iff.1 h
    rw [ih hlast, has_put hnext]
    grind

/-- The members of these keys can still be read: no key stands twice, and none has been read. -/
structure Draft.Awaits (d : Draft) (ms : List (String × Json)) : Prop where
  ascending : ms.Pairwise fun m n => m.1 < n.1
  unread : ∀ m ∈ ms, d.has m.1 = false

section

variable {d next : Draft} {m : String × Json} {ms : List (String × Json)} {e : DecodeError}

theorem Draft.Awaits.put_eq_error_iff (h : d.Awaits (m :: ms)) :
    d.put m.1 m.2 = .error e ↔ Misfit m.1 m.2 e :=
  Draft.put_eq_error_iff (h.unread m List.mem_cons_self)

theorem Draft.Awaits.exists_put_iff (h : d.Awaits (m :: ms)) :
    (∃ next, d.put m.1 m.2 = .ok next) ↔ Fits m.1 m.2 := by
  simp only [exists_eq_ok_iff, ne_eq, h.put_eq_error_iff, Fits]

theorem Draft.Awaits.rest (h : d.Awaits (m :: ms)) (hput : d.put m.1 m.2 = .ok next) :
    next.Awaits ms := by
  obtain ⟨hlt, hs⟩ := List.pairwise_cons.1 h.ascending
  refine ⟨hs, fun n hn => ?_⟩
  have hne : n.1 ≠ m.1 := fun heq => String.lt_irrefl _ (heq ▸ hlt n hn)
  simp [has_put hput, h.unread n (List.mem_cons_of_mem _ hn), hne]

theorem Draft.exists_putAll_iff (h : d.Awaits ms) :
    (∃ last, Json.putAll put d ms = .ok last) ↔ ∀ m ∈ ms, Fits m.1 m.2 := by
  induction ms generalizing d with
  | nil => simp
  | cons m ms ih =>
    rw [List.forall_mem_cons, ← h.exists_put_iff, Json.putAll_cons]
    constructor
    · rintro ⟨last, hlast⟩
      obtain ⟨next, hnext, hlast⟩ := bind_eq_ok_iff.1 hlast
      exact ⟨⟨next, hnext⟩, (ih (h.rest hnext)).1 ⟨last, hlast⟩⟩
    · rintro ⟨⟨next, hnext⟩, hrest⟩
      obtain ⟨last, hlast⟩ := (ih (h.rest hnext)).2 hrest
      exact ⟨last, bind_eq_ok_iff.2 ⟨next, hnext, hlast⟩⟩

/-- Over members in ascending order the first value that does not fit decides, which is that of the
least key. -/
theorem Draft.putAll_eq_error_iff (h : d.Awaits ms) :
    Json.putAll put d ms = .error e ↔
      ∃ m ∈ ms, Misfit m.1 m.2 e ∧ ∀ n ∈ ms, n.1 < m.1 → Fits n.1 n.2 := by
  induction ms generalizing d with
  | nil => simp
  | cons m ms ih =>
    obtain ⟨hlt, -⟩ := List.pairwise_cons.1 h.ascending
    have hbind := bind_eq_error_iff (x := d.put m.1 m.2) (f := fun d => Json.putAll put d ms)
      (e := e)
    rw [Json.putAll_cons]
    refine hbind.trans ?_
    constructor
    · rintro (hmisfit | ⟨next, hnext, herror⟩)
      · refine ⟨m, List.mem_cons_self, h.put_eq_error_iff.1 hmisfit, fun n hn hnm => ?_⟩
        -- no key is below the first
        rcases List.mem_cons.1 hn with rfl | hn
        · exact absurd hnm (String.lt_irrefl _)
        · exact absurd hnm (String.lt_asymm (hlt n hn))
      · obtain ⟨l, hl, hmisfit, hbefore⟩ := (ih (h.rest hnext)).1 herror
        have hfirst : Fits m.1 m.2 := h.exists_put_iff.1 ⟨next, hnext⟩
        exact ⟨l, List.mem_cons_of_mem _ hl, hmisfit,
          List.forall_mem_cons.2 ⟨fun _ => hfirst, hbefore⟩⟩
    · rintro ⟨l, hl, hmisfit, hbefore⟩
      obtain ⟨hfirst, hbefore⟩ := List.forall_mem_cons.1 hbefore
      rcases List.mem_cons.1 hl with rfl | hl
      · exact .inl (h.put_eq_error_iff.2 hmisfit)
      · obtain ⟨next, hnext⟩ := h.exists_put_iff.2 (hfirst (hlt l hl))
        exact .inr ⟨next, hnext, (ih (h.rest hnext)).2 ⟨l, hl, hmisfit, hbefore⟩⟩

end

theorem Draft.finish_eq_error_iff {d : Draft} {e : DecodeError} :
    d.finish = .error e ↔
      ∃ field, keys.find? (fun key => !d.has key) = some field ∧ e = .missing field := by
  obtain ⟨tag?, position?, line?, text?⟩ := d
  cases tag? <;> cases position? <;> cases line? <;> cases text? <;>
    simp [finish, Json.require, keys, has, bind, Except.bind, pure, Except.pure, eq_comm]

theorem find?_missing {d : Draft} {ms : List (String × Json)}
    (h : Json.putAll Draft.put {} ms = .ok d) :
    keys.find? (fun key => !d.has key) =
      keys.find? fun key => ((Json.object ms).get? key).isNone := by
  have hhas : ∀ key ∈ keys, d.has key = ((Json.object ms).get? key).isSome := by
    intro key hkey
    rw [Bool.eq_iff_iff, Draft.has_putAll h hkey, Json.isSome_get?_iff]
    simp [Draft.has]
  rw [← List.head?_filter, ← List.head?_filter]
  congr 1
  exact List.filter_congr fun key hkey => by rw [hhas key hkey, Option.not_isSome]

theorem ofJson_object_eq_error_iff {ms : List (String × Json)} {e : DecodeError}
    (hs : ms.Pairwise fun m n => m.1 < n.1) :
    ofJson (.object ms) = .error e ↔
      (∃ m ∈ ms, Misfit m.1 m.2 e ∧ ∀ n ∈ ms, n.1 < m.1 → Fits n.1 n.2) ∨
      (∀ m ∈ ms, Fits m.1 m.2) ∧
        ∃ field, keys.find? (fun key => ((Json.object ms).get? key).isNone) = some field ∧
          e = .missing field := by
  have hawaits : Draft.Awaits {} ms := ⟨hs, fun m _ => by simp [Draft.has]⟩
  have hread : ofJson (.object ms) = Json.putAll Draft.put {} ms >>= Draft.finish := rfl
  rw [hread, bind_eq_error_iff, Draft.putAll_eq_error_iff hawaits,
    ← Draft.exists_putAll_iff hawaits]
  refine or_congr_right ?_
  constructor
  · rintro ⟨d, hd, hfinish⟩
    rw [Draft.finish_eq_error_iff, find?_missing hd] at hfinish
    exact ⟨⟨d, hd⟩, hfinish⟩
  · rintro ⟨⟨d, hd⟩, hmissing⟩
    rw [← find?_missing hd] at hmissing
    exact ⟨d, hd, Draft.finish_eq_error_iff.2 hmissing⟩

/-- Why the place of a field in a list has no good value: the list ends before it, or its element
there does not fit. -/
def Lacks (xs : List Json) (i : Nat) (e : DecodeError) : Prop :=
  ∃ field, keys[i]? = some field ∧
    (xs[i]? = none ∧ e = .tooShort xs.length .token 4 ∨ ∃ j, xs[i]? = some j ∧ Misfit field j e)

section

variable {α : Type} {xs : List Json} {i : Nat} {e : DecodeError}

theorem element_bind_eq_error_iff {field : String} {read : Json → Except DecodeError α}
    (hfield : keys[i]? = some field) (hread : ∀ j e, Misfit field j e ↔ read j = .error e) :
    (element xs i >>= read) = .error e ↔ Lacks xs i e := by
  rw [Lacks, bind_eq_error_iff, element]
  cases xs[i]? with
  | none => simp [hfield, eq_comm]
  | some j => simp [hfield, hread]

theorem not_lacks_of_le (h : 4 ≤ i) : ¬Lacks xs i e := by
  rintro ⟨field, hfield, -⟩
  rw [List.getElem?_eq_none (by simpa [keys] using h)] at hfield
  cases hfield

def Has (xs : List Json) (i : Nat) : Prop := ∀ e, ¬Lacks xs i e

theorem has_of_le (h : 4 ≤ i) : Has xs i := fun _ => not_lacks_of_le h

theorem forall_has_iff : (∀ i, Has xs i) ↔ Has xs 0 ∧ Has xs 1 ∧ Has xs 2 ∧ Has xs 3 := by
  constructor
  · exact fun h => ⟨h 0, h 1, h 2, h 3⟩
  · rintro ⟨h0, h1, h2, h3⟩ i
    match i with
    | 0 => exact h0
    | 1 => exact h1
    | 2 => exact h2
    | 3 => exact h3
    | i + 4 => exact has_of_le (Nat.le_add_left 4 i)

theorem four_le_length (h : Has xs 3) : 4 ≤ xs.length := by
  by_contra hlt
  exact h _ ⟨"value", rfl, .inl ⟨List.getElem?_eq_none (by omega), rfl⟩⟩

theorem exists_lacks_iff :
    (∃ i, Lacks xs i e ∧ ∀ k < i, Has xs k) ↔
      Lacks xs 0 e ∨ Has xs 0 ∧ (Lacks xs 1 e ∨ Has xs 1 ∧ (Lacks xs 2 e ∨ Has xs 2 ∧
        Lacks xs 3 e)) := by
  have hbehind : ¬∃ i, 4 ≤ i ∧ Lacks xs i e ∧ ∀ k, 4 ≤ k → k < i → Has xs k :=
    fun ⟨i, hi, hlacks, _⟩ => not_lacks_of_le hi hlacks
  have h := exists_first_iff (fun i => Lacks xs i e) (Has xs) 0
  rw [exists_first_iff _ _ 1, exists_first_iff _ _ 2, exists_first_iff _ _ 3] at h
  simpa [hbehind] using h

theorem ofElements_eq (xs : List Json) :
    ofElements xs =
      (element xs 0 >>= decode) >>= fun tag => (element xs 1 >>= Json.offset) >>= fun position =>
        (element xs 2 >>= Json.offset) >>= fun line => (element xs 3 >>= Json.text) >>= fun text =>
          if xs.length = 4 then .ok ⟨tag, position, line, text⟩
          else .error (.tooLong xs.length) := by
  simp only [ofElements, bind_assoc]
  rfl

theorem ofJson_array_eq_error_iff :
    ofJson (.array xs) = .error e ↔
      (∃ i, Lacks xs i e ∧ ∀ k < i, Has xs k) ∨
      (∀ i, Has xs i) ∧ 4 < xs.length ∧ e = .tooLong xs.length := by
  have h0 (e : DecodeError) :
      (element xs 0 >>= decode) = (.error e : Except DecodeError Tag) ↔ Lacks xs 0 e :=
    element_bind_eq_error_iff rfl fun j e => misfit_tag_iff
  have h1 (e : DecodeError) : (element xs 1 >>= Json.offset) = .error e ↔ Lacks xs 1 e :=
    element_bind_eq_error_iff rfl fun j e => misfit_position_iff
  have h2 (e : DecodeError) : (element xs 2 >>= Json.offset) = .error e ↔ Lacks xs 2 e :=
    element_bind_eq_error_iff rfl fun j e => misfit_line_iff
  have h3 (e : DecodeError) : (element xs 3 >>= Json.text) = .error e ↔ Lacks xs 3 e :=
    element_bind_eq_error_iff rfl fun j e => misfit_text_iff
  have hlast (t : Token) : (if xs.length = 4 then .ok t else .error (.tooLong xs.length)) =
      (.error e : Except DecodeError Token) ↔ xs.length ≠ 4 ∧ e = .tooLong xs.length := by
    split <;> simp [*, eq_comm]
  rw [ofJson, ofElements_eq]
  simp only [bind_eq_error_iff (x := _ >>= decode), bind_eq_error_iff (x := _ >>= Json.offset),
    bind_eq_error_iff (x := _ >>= Json.text), hlast, exists_and_right, exists_eq_ok_iff, ne_eq,
    h0, h1, h2, h3, exists_lacks_iff, forall_has_iff]
  -- the fourth value is there, so a length other than four is greater
  have hlong : Has xs 3 → 4 ≤ xs.length := four_le_length
  grind [Has]

end

def Spoils (j : Json) (key : String) (e : DecodeError) : Prop :=
  ∃ v, j.get? key = some v ∧ Misfit key v e

theorem lacks_map_value {xs : List Json} {i : Nat} {e : DecodeError} :
    Lacks (xs.map Json.value) i e ↔ Lacks xs i e := by
  simp only [Lacks, List.getElem?_map, Option.map_eq_none_iff, List.length_map,
    Option.map_eq_some_iff]
  refine exists_congr fun field => and_congr_right fun _ => or_congr_right ?_
  constructor
  · rintro ⟨_, ⟨j, hj, rfl⟩, hmisfit⟩
    exact ⟨j, hj, misfit_value.1 hmisfit⟩
  · rintro ⟨j, hj, hmisfit⟩
    exact ⟨j.value, ⟨j, hj, rfl⟩, misfit_value.2 hmisfit⟩

theorem decodeValue_object_eq_error_iff {ms : List (String × Json)} {e : DecodeError} :
    (decodeValue (.object ms) : Except DecodeError Token) = .error e ↔
      (∃ key, Spoils (Json.object ms).value key e ∧
        ∀ k < key, ∀ e', ¬Spoils (Json.object ms).value k e') ∨
      (∀ key e', ¬Spoils (Json.object ms).value key e') ∧
        ∃ field, keys.find? (fun key => ((Json.object ms).value.get? key).isNone) = some field ∧
          e = .missing field := by
  have hread : (decodeValue (.object ms) : Except DecodeError Token) =
      ofJson (.object (Json.lastOfEach (Json.memberValues ms))) := rfl
  rw [hread, ofJson_object_eq_error_iff (Json.pairwise_lastOfEach _), Json.value]
  simp only [Prod.exists, Prod.forall, Json.mem_lastOfEach_iff, Spoils, Fits]
  grind

/-- An object is refused for the least key with a value that does not fit its field, whatever else
is missing. Where all values fit it is refused for the first field that is missing. Other keys
change nothing. An array is refused for the first element that is not there or does not fit, and
where the four fit for its length, if there are more. -/
theorem first_fault_decides :
    (∀ (ms : List (String × Json)) (e : DecodeError),
      (decodeValue (.object ms) : Except DecodeError Token) = .error e ↔
        (∃ key, Spoils (Json.object ms).value key e ∧
          ∀ k < key, ∀ e', ¬Spoils (Json.object ms).value k e') ∨
        (∀ key e', ¬Spoils (Json.object ms).value key e') ∧
          ∃ field, ["item_type", "pos", "line", "value"].find?
              (fun key => ((Json.object ms).value.get? key).isNone) = some field ∧
            e = .missing field) ∧
    (∀ ms ns : List (String × Json),
      Json.AgreeOn ["item_type", "pos", "line", "value"] (Json.object ms).value
        (Json.object ns).value →
      (decodeValue (.object ms) : Except DecodeError Token) = decodeValue (.object ns)) ∧
    ∀ (xs : List Json) (e : DecodeError),
      (decodeValue (.array xs) : Except DecodeError Token) = .error e ↔
        (∃ i, Lacks xs i e ∧ ∀ k < i, ∀ e', ¬Lacks xs k e') ∨
        (∀ i e', ¬Lacks xs i e') ∧ 4 < xs.length ∧ e = .tooLong xs.length := by
  refine ⟨fun ms e => decodeValue_object_eq_error_iff, fun ms ns => decodeValue_congr, ?_⟩
  intro xs e
  have hread : (decodeValue (.array xs) : Except DecodeError Token) =
      ofJson (.array (Json.values xs)) := rfl
  rw [hread, Json.values_eq_map, ofJson_array_eq_error_iff, List.length_map]
  simp only [Has, lacks_map_value]

/-- The order of the keys is that of their letters. -/
example : "item_type" < "line" ∧ "line" < "pos" ∧ "pos" < "value" := by decide

/-- Two bad values and no tag: the error is that of the line, with and without another member. -/
theorem first_fault_decides_line :
    let ms := [("value", Json.null), ("pos", .ofNat 7), ("line", .string "7")]
    let ns := [("line", Json.string "7"), ("item", .null), ("pos", .ofNat 7), ("value", .null)]
    let e := DecodeError.wrongKind (.string "7") .offset
    Json.AgreeOn ["item_type", "pos", "line", "value"] (Json.object ms).value
        (Json.object ns).value ∧
      Spoils (Json.object ms).value "line" e ∧
      (decodeValue (.object ns) : Except DecodeError Token) = .error e := by
  intro ms ns e
  have hagree : Json.AgreeOn ["item_type", "pos", "line", "value"] (Json.object ms).value
      (Json.object ns).value := by
    simp only [Json.AgreeOn, List.forall_mem_cons]
    exact ⟨rfl, rfl, rfl, rfl, nofun⟩
  have hspoils : Spoils (Json.object ms).value "line" e := ⟨.string "7", rfl, misfit_line_iff.2 rfl⟩
  have hread : (decodeValue (.object ms) : Except DecodeError Token) = .error e := rfl
  obtain ⟨-, hkeys, -⟩ := first_fault_decides
  exact ⟨hagree, hspoils, (hkeys ms ns hagree).symm.trans hread⟩

end Token
end Lexeme
