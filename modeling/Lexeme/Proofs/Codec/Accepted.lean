import Lexeme.Proofs.Codec.Agreement
import Mathlib.Data.List.Sort

/-!
# What is accepted as a value

Main statement: a document is taken for a token if it has the four values of one, by their keys or
by their places, and each is of its kind and in its range; the token has these values. So it makes
no difference whether they are given by key or by place. What is read off an object, be it a value
or an error, depends on the keys that are read there and on no others.
-/

namespace Lexeme

theorem Number.integer?_eq_some_iff {n : Number} {k : Nat} :
    n.integer? = some (k : Int) ↔ n = ofNat k ∧ k < UInt64.size := by
  constructor
  · intro h
    obtain ⟨negative, whole, fraction, exponent?⟩ := n
    simp only [integer?, Option.ite_none_right_eq_some, Option.some.injEq] at h
    obtain ⟨⟨rfl, rfl, hzero, -, hmax⟩, hk⟩ := h
    have hsize : UInt64.size = 18446744073709551616 := rfl
    have hbound : maxInteger = 18446744073709551615 := rfl
    cases negative with
    | false =>
      obtain rfl : whole = k := Int.ofNat.inj hk
      have hle : (whole : Int) ≤ maxInteger := hmax
      exact ⟨rfl, by omega⟩
    | true =>
      simp at hk hzero
      omega
  · rintro ⟨rfl, hk⟩
    exact integer?_ofNat hk

namespace Json

variable {j : Json}

theorem found_eq_integer_iff {n : Nat} :
    j.found = .integer n ↔ j = ofNat n ∧ n < UInt64.size := by
  cases j with
  | number m =>
    rw [found, ofNat, number.injEq, ← Number.integer?_eq_some_iff]
    cases m.integer? <;> simp
  | _ => simp [found, ofNat]

def IsWhole (limit : Nat) (j : Json) : Prop := ∃ i : Int, j.found = .integer i ∧ 0 ≤ i ∧ i < limit

section

variable {limit : Nat} (hl : limit ≤ UInt64.size)

include hl

theorem natBelow_eq_ok_iff {expected : Expected} {n : Nat} :
    j.natBelow limit expected = .ok n ↔ j = ofNat n ∧ n < limit := by
  have hfound : j.natBelow limit expected = .ok n ↔ j.found = .integer n ∧ n < limit := by
    rw [natBelow]
    cases hf : j.found with
    | integer i =>
      by_cases hi : 0 ≤ i ∧ i < limit
      · simp only [hi, and_self, if_true, Except.ok.injEq, Found.integer.injEq]
        omega
      · simp only [hi, if_false, reduceCtorEq, Found.integer.injEq, false_iff]
        omega
    | _ => simp
  rw [hfound, found_eq_integer_iff, and_assoc]
  exact and_congr_right fun _ => and_iff_right_of_imp fun hn => Nat.lt_of_lt_of_le hn hl

theorem isWhole_iff : j.IsWhole limit ↔ ∃ n < limit, j = ofNat n := by
  constructor
  · rintro ⟨i, hi, hpos, hlt⟩
    obtain ⟨n, rfl⟩ := Int.eq_ofNat_of_zero_le hpos
    exact ⟨n, Int.ofNat_lt.1 hlt, (found_eq_integer_iff.1 hi).1⟩
  · rintro ⟨n, hn, hj⟩
    have hfound := found_eq_integer_iff.2 ⟨hj, Nat.lt_of_lt_of_le hn hl⟩
    exact ⟨n, hfound, Int.natCast_nonneg n, Int.ofNat_lt.2 hn⟩

end

theorem offset_eq_ok_iff {n : UInt64} : j.offset = .ok n ↔ j = ofNat n.toNat := by
  simp only [offset, map_eq_ok_iff, natBelow_eq_ok_iff (Nat.le_refl _)]
  constructor
  · rintro ⟨k, ⟨hj, hk⟩, rfl⟩
    rw [hj, UInt64.toNat_ofNat_of_lt' hk]
  · intro hj
    exact ⟨n.toNat, ⟨hj, n.toNat_lt⟩, UInt64.ofNat_toNat⟩

theorem text_eq_ok_iff {s : String} : j.text = .ok s ↔ j = string s := by
  cases j <;> simp [text]

end Json

theorem Tag.decode_eq_ok_iff {j : Json} {t : Tag} :
    decode j = .ok t ↔ j = .ofNat t.value.toNat := by
  have hl : UInt32.size ≤ UInt64.size := by decide
  simp only [decode, map_eq_ok_iff, Json.natBelow_eq_ok_iff hl]
  constructor
  · rintro ⟨k, ⟨hj, hk⟩, rfl⟩
    rw [hj, UInt32.toNat_ofNat_of_lt' hk]
  · intro hj
    exact ⟨t.value.toNat, ⟨hj, t.value.toNat_lt⟩, congrArg Tag.mk UInt32.ofNat_toNat⟩

namespace Json

theorem valuesFor_eq_get? (key : String) (ms : List (String × Json)) :
    valuesFor key (lastOfEach ms) = ((object (lastOfEach ms)).get? key).toList := by
  rw [get?, lookup_eq_head?, valuesFor_lastOfEach, Option.head?_toList]

theorem given_toList_iff {α : Type} {read : Json → Except DecodeError α} {value? : Option Json}
    {a : α} : Given read value?.toList a ↔ ∃ j, value? = some j ∧ read j = .ok a := by
  cases value? <;> simp [Given]

end Json

namespace Token

/-- The four values of a token, as the members of an object that may have others, or as the elements
of an array. -/
def Fields (j tag position line text : Json) : Prop :=
  j.get? "item_type" = some tag ∧ j.get? "pos" = some position ∧ j.get? "line" = some line ∧
      j.get? "value" = some text ∨
    j = .array [tag, position, line, text]

theorem decodeValue_eq_ok_iff {j : Json} {t : Token} :
    decodeValue j = .ok t ↔
      Fields j.value (.ofNat t.tag.value.toNat) (.ofNat t.position.toNat) (.ofNat t.line.toNat)
        (.string t.text) := by
  have hread : (decodeValue j : Except DecodeError Token) = ofJson j.value := rfl
  rw [hread, Fields]
  cases j with
  | object ms =>
    rw [Json.value, ofJson_object_eq_ok_iff]
    simp only [Json.valuesFor_eq_get?, Json.given_toList_iff, Tag.decode_eq_ok_iff,
      Json.offset_eq_ok_iff, Json.text_eq_ok_iff, exists_eq_right, reduceCtorEq, or_false]
  | array xs =>
    rw [Json.value, ofJson_array_eq_ok_iff]
    simp only [Tag.decode_eq_ok_iff, Json.offset_eq_ok_iff, Json.text_eq_ok_iff, Json.get?,
      reduceCtorEq, false_and, false_or, Json.array.injEq]
    constructor
    · rintro ⟨a, b, c, d, hxs, rfl, rfl, rfl, rfl⟩
      exact hxs
    · intro hxs
      exact ⟨_, _, _, _, hxs, rfl, rfl, rfl, rfl⟩
  | _ => simp [Json.value, ofJson, Json.get?]

theorem decodeValue_array_eq_ok_iff {a b c d : Json} {t : Token} :
    decodeValue (.array [a, b, c, d]) = .ok t ↔
      a.value = .ofNat t.tag.value.toNat ∧ b.value = .ofNat t.position.toNat ∧
        c.value = .ofNat t.line.toNat ∧ d.value = .string t.text := by
  simp [decodeValue_eq_ok_iff, Fields, Json.value, Json.get?]

theorem exists_fields_iff {j : Json} :
    (∃ t : Token, Fields j (.ofNat t.tag.value.toNat) (.ofNat t.position.toNat)
        (.ofNat t.line.toNat) (.string t.text)) ↔
      ∃ tag position line text, Fields j tag position line text ∧ tag.IsWhole 4294967296 ∧
        position.IsWhole 18446744073709551616 ∧ line.IsWhole 18446744073709551616 ∧
        ∃ s, text = .string s := by
  have htag : 4294967296 ≤ UInt64.size := by decide
  have hoffset : 18446744073709551616 ≤ UInt64.size := by decide
  simp only [Json.isWhole_iff htag, Json.isWhole_iff hoffset]
  constructor
  · rintro ⟨t, h⟩
    exact ⟨_, _, _, _, h, ⟨_, t.tag.value.toNat_lt, rfl⟩, ⟨_, t.position.toNat_lt, rfl⟩,
      ⟨_, t.line.toNat_lt, rfl⟩, _, rfl⟩
  · rintro ⟨_, _, _, _, h, ⟨tag, ht, rfl⟩, ⟨position, hp, rfl⟩, ⟨line, hl, rfl⟩, text, rfl⟩
    refine ⟨⟨⟨UInt32.ofNat tag⟩, UInt64.ofNat position, UInt64.ofNat line, text⟩, ?_⟩
    rwa [UInt32.toNat_ofNat_of_lt' ht, UInt64.toNat_ofNat_of_lt' hp, UInt64.toNat_ofNat_of_lt' hl]

/-- A token is read off the value of a document if that has four fields, by key or by place: a tag
and two offsets, which are whole numbers of 32 and of 64 bits, and a text. The token has these four
values. Given by place or by key among other members, the same four values give the same token, or
none. -/
theorem decodeValue_by_fields (j : Json) :
    (∀ t : Token, decodeValue j = .ok t ↔
      Fields j.value (.ofNat t.tag.value.toNat) (.ofNat t.position.toNat) (.ofNat t.line.toNat)
        (.string t.text)) ∧
    ((∃ t : Token, decodeValue j = .ok t) ↔
      ∃ tag position line text, Fields j.value tag position line text ∧
        tag.IsWhole 4294967296 ∧ position.IsWhole 18446744073709551616 ∧
        line.IsWhole 18446744073709551616 ∧ ∃ s, text = .string s) ∧
    (∀ a b c d : Json, j.value.get? "item_type" = some a.value → j.value.get? "pos" = some b.value →
      j.value.get? "line" = some c.value → j.value.get? "value" = some d.value →
      ∀ t : Token, decodeValue (.array [a, b, c, d]) = .ok t ↔ decodeValue j = .ok t) := by
  refine ⟨fun t => decodeValue_eq_ok_iff, ?_, ?_⟩
  · simp only [decodeValue_eq_ok_iff, exists_fields_iff]
  · intro a b c d ha hb hc hd t
    have hobject : ∀ xs, j.value ≠ .array xs := by
      intro xs hxs
      rw [hxs] at ha
      cases ha
    rw [decodeValue_array_eq_ok_iff, decodeValue_eq_ok_iff, Fields, ha, hb, hc, hd]
    simp only [Option.some.injEq, hobject, or_false]

/-- The largest values, by key with another member among them and in any order. -/
theorem decodeValue_by_fields_largest :
    let tag := Json.ofNat 4294967295
    let offset := Json.ofNat 18446744073709551615
    let j := Json.object [("value", .string ""), ("pos", offset), ("kind", .null), ("line", offset),
      ("item_type", tag)]
    j.value.get? "item_type" = some tag.value ∧ j.value.get? "pos" = some offset.value ∧
      j.value.get? "line" = some offset.value ∧ j.value.get? "value" = some (Json.string "").value ∧
      decodeValue (.array [tag, offset, offset, .string ""]) =
        .ok (⟨⟨4294967295⟩, 18446744073709551615, 18446744073709551615, ""⟩ : Token) := by
  intro tag offset j
  have htag : j.value.get? "item_type" = some tag.value := rfl
  have hposition : j.value.get? "pos" = some offset.value := rfl
  have hline : j.value.get? "line" = some offset.value := rfl
  have htext : j.value.get? "value" = some (Json.string "").value := rfl
  obtain ⟨hread, -, hplaces⟩ := decodeValue_by_fields j
  refine ⟨htag, hposition, hline, htext, ?_⟩
  exact (hplaces _ _ _ _ htag hposition hline htext _).2
    ((hread _).2 (.inl ⟨htag, hposition, hline, htext⟩))

end Token

namespace Json

variable {keys : List String} {key : String} {ms ns : List (String × Json)} {j : Json}

theorem pairwise_lastOfEach (ms : List (String × Json)) :
    (lastOfEach ms).Pairwise fun m n => m.1 < n.1 := by
  have h : (lastOfEach ms).Pairwise fun m n => compare m.1 n.1 = .lt :=
    Std.ExtTreeMap.ordered_keys_toList
  exact h.imp fun hlt => compareOfLessAndEq_eq_lt.1 hlt

theorem mem_lastOfEach_iff :
    (key, j) ∈ lastOfEach ms ↔ (object (lastOfEach ms)).get? key = some j := by
  rw [← mem_valuesFor, valuesFor_eq_get?, Option.mem_toList]

def AgreeOn (keys : List String) (j k : Json) : Prop := ∀ key ∈ keys, j.get? key = k.get? key

theorem filter_lastOfEach_congr
    (h : AgreeOn keys (object (lastOfEach ms)) (object (lastOfEach ns))) :
    (lastOfEach ms).filter (fun m => m.1 ∈ keys) =
      (lastOfEach ns).filter (fun m => m.1 ∈ keys) := by
  have hsorted (ms : List (String × Json)) :
      ((lastOfEach ms).filter fun m => m.1 ∈ keys).Pairwise fun m n => m.1 < n.1 :=
    (pairwise_lastOfEach ms).filter _
  have hnodup (ms : List (String × Json)) : ((lastOfEach ms).filter fun m => m.1 ∈ keys).Nodup := by
    refine (hsorted ms).imp ?_
    rintro m _ hlt rfl
    exact String.lt_irrefl _ hlt
  have hperm := (List.perm_ext_iff_of_nodup (hnodup ms) (hnodup ns)).2 <| by
    rintro ⟨key, j⟩
    simp only [List.mem_filter, decide_eq_true_eq, mem_lastOfEach_iff]
    exact and_congr_left fun hkey => by rw [h key hkey]
  refine hperm.eq_of_pairwise ?_ (hsorted ms) (hsorted ns)
  intro m n _ _ hmn hnm
  exact absurd hnm (String.lt_asymm hmn)

/-- A reader of members has no use for other keys than these. -/
def Skips {δ : Type} (keys : List String) (put : δ → String → Json → Except DecodeError δ) : Prop :=
  ∀ d key j, key ∉ keys → put d key j = .ok d

section

variable {δ : Type} {put : δ → String → Json → Except DecodeError δ}

theorem Skips.putAll_filter (h : Skips keys put) (d : δ) (ms : List (String × Json)) :
    putAll put d (ms.filter fun m => m.1 ∈ keys) = putAll put d ms := by
  induction ms generalizing d with
  | nil => rfl
  | cons m ms ih =>
    by_cases hm : m.1 ∈ keys
    · rw [List.filter_cons_of_pos (by simpa using hm), putAll_cons, putAll_cons]
      simp only [ih]
    · rw [List.filter_cons_of_neg (by simpa using hm), ih, putAll_cons, h d m.1 m.2 hm]
      rfl

/-- Members of other keys make no difference to what is read, or to the error. -/
theorem Skips.putAll_congr (h : Skips keys put)
    (ha : AgreeOn keys (object (lastOfEach ms)) (object (lastOfEach ns))) (d : δ) :
    putAll put d (lastOfEach ms) = putAll put d (lastOfEach ns) := by
  rw [← h.putAll_filter, filter_lastOfEach_congr ha, h.putAll_filter]

end

end Json

theorem Token.Draft.skips : Json.Skips Token.keys put := by
  intro d key j h
  rw [mem_keys_iff, not_or, not_or, not_or] at h
  simp [put, h]

theorem Config.Draft.skips : Json.Skips Config.keys put := by
  intro d key j h
  rw [mem_keys_iff, not_or] at h
  simp [put, h]

theorem Token.decodeValue_congr {ms ns : List (String × Json)}
    (h : Json.AgreeOn keys (Json.object ms).value (Json.object ns).value) :
    (decodeValue (.object ms) : Except DecodeError Token) = decodeValue (.object ns) :=
  congrArg (Except.bind · Draft.finish) (Draft.skips.putAll_congr h {})

theorem Config.decodeValue_congr {ms ns : List (String × Json)}
    (h : Json.AgreeOn keys (Json.object ms).value (Json.object ns).value) :
    (decodeValue (.object ms) : Except DecodeError Config) = decodeValue (.object ns) :=
  congrArg (Except.map Draft.finish) (Draft.skips.putAll_congr h {})

end Lexeme
