import Lexeme.Proofs.Codec.Members
import Lexeme.Proofs.Json.Printer

/-!
# Documents as text and as values

Whatever this library writes as a document comes back from its text as it was. A text is read as it
stands, and the value of its document has each key once, with the last member of that key. Main
statement: reading the text and reading the value come to the same, unless an object that is read
repeats one of its keys; then nothing is read off the text.
-/

namespace Lexeme

/-- What is written is a document, and is taken for what it was. -/
class LawfulCodec (α : Type) [Encode α] [Decode α] : Prop where
  wellFormed_encode (a : α) : (encode a).WellFormed
  decode_encode (a : α) : decode (encode a) = .ok a

theorem decodeText_compact {α : Type} [Encode α] [Decode α] [LawfulCodec α] (a : α) :
    decodeText (encode a).compact = .ok a := by
  rw [decodeText, Json.parse?_compact (LawfulCodec.wellFormed_encode a)]
  exact LawfulCodec.decode_encode a

namespace Json

theorem natBelow_ofNat {n limit : Nat} (h : n < limit) (hl : limit ≤ UInt64.size)
    (expected : Expected) : (ofNat n).natBelow limit expected = .ok n := by
  have hi := Number.integer?_ofNat (Nat.lt_of_lt_of_le h hl)
  have hf : (ofNat n).found = .integer n := by simp [ofNat, found, hi]
  simp [natBelow, hf, h]

theorem offset_ofNat (n : UInt64) : (ofNat n.toNat).offset = .ok n := by
  rw [offset, natBelow_ofNat n.toNat_lt_size (Nat.le_refl _)]
  simp [Except.map]

end Json

instance : LawfulCodec Tag where
  wellFormed_encode t := Json.wellFormed_ofNat t.value.toNat
  decode_encode t := by
    have h := Json.natBelow_ofNat t.value.toNat_lt_size (by decide) .tag
    simp [encode, decode, h, Except.map]

instance : LawfulCodec RenamePolicy where
  wellFormed_encode p := .string p.name
  decode_encode p := by simp [encode, decode, RenamePolicy.ofJson, RenamePolicy.ofJsonName]

theorem Config.ofJson_toJson (c : Config) : ofJson c.toJson = .ok c := by
  have hp : decode (encode c.collision) = .ok c.collision :=
    LawfulCodec.decode_encode c.collision
  refine ofJson_object_eq_ok_iff.2 ⟨?_, ?_⟩
  · simpa using hp
  · simp [Json.flag]

instance : LawfulCodec Config where
  wellFormed_encode c := by
    refine .object (List.forall_mem_cons.2 ⟨LawfulCodec.wellFormed_encode c.collision, ?_⟩)
    exact List.forall_mem_singleton.2 (.boolean _)
  decode_encode := Config.ofJson_toJson

theorem Token.ofJson_toJson (t : Token) : ofJson t.toJson = .ok t := by
  have ht : decode (encode t.tag) = .ok t.tag :=
    LawfulCodec.decode_encode t.tag
  exact ofJson_object_eq_ok_iff.2 ⟨⟨_, rfl, ht⟩, ⟨_, rfl, Json.offset_ofNat t.position⟩,
    ⟨_, rfl, Json.offset_ofNat t.line⟩, _, rfl, rfl⟩

instance : LawfulCodec Token where
  wellFormed_encode t := by
    refine .object (List.forall_mem_cons.2 ⟨LawfulCodec.wellFormed_encode t.tag, ?_⟩)
    refine List.forall_mem_cons.2 ⟨Json.wellFormed_ofNat t.position.toNat, ?_⟩
    refine List.forall_mem_cons.2 ⟨Json.wellFormed_ofNat t.line.toNat, ?_⟩
    exact List.forall_mem_singleton.2 (.string t.text)
  decode_encode := Token.ofJson_toJson

theorem Token.compact_encode (t : Token) :
    (encode t).compact =
      "\x7b\"item_type\":" ++ t.tag.digits ++ ",\"pos\":" ++ t.position.toNat.repr ++ ",\"line\":"
        ++ t.line.toNat.repr ++ ",\"value\":" ++ Quoting.json.quote t.text ++ "\x7d" := by
  have htag : Quoting.json.write "item_type".toList = "\"item_type\"".toList := by decide
  have hpos : Quoting.json.write "pos".toList = "\"pos\"".toList := by decide
  have hline : Quoting.json.write "line".toList = "\"line\"".toList := by decide
  have htext : Quoting.json.write "value".toList = "\"value\"".toList := by decide
  rw [← String.toList_inj]
  simp only [encode, toJson, Json.compact, Json.print, Json.printMembers, Json.ofNat,
    Number.text_ofNat, htag, hpos, hline, htext]
  simp [Tag.digits, Nat.repr_eq_ofList_toDigits]

/-- A token is kept in one line of text, and comes back from it as it was. -/
theorem Token.kept_as_line (t : Token) :
    (encode t).compact =
      "\x7b\"item_type\":" ++ t.tag.digits ++ ",\"pos\":" ++ t.position.toNat.repr ++ ",\"line\":"
        ++ t.line.toNat.repr ++ ",\"value\":" ++ Quoting.json.quote t.text ++ "\x7d" ∧
    decodeText (encode t).compact = .ok t ∧
    ∀ c ∈ (encode t).compact.toList, 0x20 ≤ c.toNat := by
  have hw : (encode t).WellFormed := LawfulCodec.wellFormed_encode t
  refine ⟨t.compact_encode, decodeText_compact t, ?_⟩
  intro c hc
  rw [Json.compact, String.toList_ofList] at hc
  simpa [Escaped.isControl] using hw.clear_print c hc

namespace Json

section

variable {α : Type} {read : Json → Except DecodeError α} {keys : List String} {key : String}
  {ms : List (String × Json)} {j : Json} {js : List Json} {a : α}

@[simp] theorem found_value (j : Json) : j.value.found = j.found := by
  cases j <;> simp [value, found]

@[simp] theorem natBelow_value (limit : Nat) (expected : Expected) (j : Json) :
    j.value.natBelow limit expected = j.natBelow limit expected := by
  simp [natBelow]

@[simp] theorem offset_value (j : Json) : j.value.offset = j.offset := by simp [offset]

@[simp] theorem text_value (j : Json) : j.value.text = j.text := by
  cases j <;> simp [value, text, found]

@[simp] theorem flag_value (j : Json) : j.value.flag = j.flag := by
  cases j <;> simp [value, flag, found]

theorem value_eq_null_iff : j.value = null ↔ j = null := by
  cases j <;> simp [value]

theorem valuesFor_lastOfEach (key : String) (ms : List (String × Json)) :
    valuesFor key (lastOfEach ms) = (valuesFor key ms).getLast?.toList := by
  rw [lastOfEach, valuesFor_toList, getElem?_ofList]

theorem exists_mem_lastOfEach {m : String × Json} (h : m ∈ ms) :
    ∃ v, (m.1, v) ∈ lastOfEach ms := by
  have hne : valuesFor m.1 ms ≠ [] := List.ne_nil_of_mem (mem_valuesFor.2 h)
  refine ⟨(valuesFor m.1 ms).getLast hne, mem_valuesFor.1 ?_⟩
  rw [valuesFor_lastOfEach, List.getLast?_eq_some_getLast hne, Option.toList_some]
  exact List.mem_cons_self

theorem lastOfEach_singleton (m : String × Json) : lastOfEach [m] = [m] := rfl

/-- One of these keys stands more than once in the object. -/
def Repeats (keys : List String) : Json → Prop
  | object ms => ∃ key ∈ keys, 1 < (valuesFor key ms).length
  | _ => False

theorem valuesFor_value (h : ¬(object ms).Repeats keys) (hk : key ∈ keys) :
    valuesFor key (lastOfEach (memberValues ms)) = (valuesFor key ms).map value := by
  have hlen : (valuesFor key ms).length ≤ 1 := by
    by_contra hlt
    exact h ⟨key, hk, Nat.lt_of_not_le hlt⟩
  rw [valuesFor_lastOfEach, memberValues_eq_map, valuesFor_map]
  match valuesFor key ms, hlen with
  | [], _ => rfl
  | [j], _ => rfl

theorem value_eq_object_iff (h : ¬(object ms).Repeats keys) (hk : key ∈ keys) :
    (object ms).value = object [(key, null)] ↔ object ms = object [(key, null)] := by
  have hvalues := valuesFor_value h hk
  rw [value, object.injEq, object.injEq]
  constructor
  · intro hms
    have hkey : ∀ m ∈ ms, m.1 = key := by
      intro m hm
      have hvalue : (m.1, m.2.value) ∈ memberValues ms := by
        rw [memberValues_eq_map]
        exact List.mem_map_of_mem hm
      obtain ⟨v, hv⟩ := exists_mem_lastOfEach hvalue
      rw [hms, List.mem_singleton] at hv
      exact congrArg Prod.fst hv
    have hall : valuesFor key ms = ms.map Prod.snd := by
      rw [valuesFor, List.filter_eq_self.2 (by simpa using hkey)]
    rw [hms, hall, List.map_map, valuesFor_cons, if_pos rfl] at hvalues
    obtain ⟨m, rfl, hm⟩ := List.map_eq_singleton_iff.1 hvalues.symm
    rw [← hkey m List.mem_cons_self, ← value_eq_null_iff.1 hm]
  · intro hms
    rw [hms, memberValues_eq_map]
    exact lastOfEach_singleton _

def ReadsAlike (read : Json → Except DecodeError α) (j : Json) : Prop :=
  ∀ a, read j.value = .ok a ↔ read j = .ok a

theorem given_map_value (h : ∀ j ∈ js, ReadsAlike read j) :
    Given read (js.map value) a ↔ Given read js a := by
  constructor
  · rintro ⟨_, hjs, hread⟩
    obtain ⟨j, rfl, rfl⟩ := List.map_eq_singleton_iff.1 hjs
    exact ⟨j, rfl, (h j List.mem_cons_self a).1 hread⟩
  · rintro ⟨j, rfl, hread⟩
    exact ⟨j.value, rfl, (h j List.mem_cons_self a).2 hread⟩

theorem overlaid_map_value {standard : α} (h : ∀ j ∈ js, ReadsAlike read j) :
    Overlaid read standard (js.map value) a ↔ Overlaid read standard js a := by
  rw [Overlaid, Overlaid, given_map_value h, List.map_eq_nil_iff]

theorem not_given (h : 1 < (valuesFor key ms).length) : ¬Given read (valuesFor key ms) a := by
  rintro ⟨j, hj, -⟩
  simp [hj] at h

theorem not_overlaid {standard : α} (h : 1 < (valuesFor key ms).length) :
    ¬Overlaid read standard (valuesFor key ms) a := by
  rintro (⟨hnil, -⟩ | hgiven)
  · simp [hnil] at h
  · exact not_given h hgiven

end

end Json

open Json (Repeats ReadsAlike)

theorem exists_error_of_ne_ok {ε α : Type} {x : Except ε α} (h : ∀ a, x ≠ .ok a) :
    ∃ e, x = .error e := by
  cases x with
  | error e => exact ⟨e, rfl⟩
  | ok a => exact absurd rfl (h a)

theorem Tag.decode_value (j : Json) : (decode j.value : Except DecodeError Tag) = decode j := by
  simp [decode]

namespace Token

theorem readsAlike {j : Json} (h : ¬j.Repeats keys) : ReadsAlike ofJson j := by
  intro t
  cases j with
  | object ms =>
    have hvalues (key : String) (hk : key ∈ keys) := Json.valuesFor_value h hk
    rw [Json.value, ofJson_object_eq_ok_iff, ofJson_object_eq_ok_iff, hvalues _ (by decide),
      hvalues _ (by decide), hvalues _ (by decide), hvalues _ (by decide),
      Json.given_map_value fun j _ t => by rw [Tag.decode_value],
      Json.given_map_value fun j _ n => by rw [Json.offset_value],
      Json.given_map_value fun j _ n => by rw [Json.offset_value],
      Json.given_map_value fun j _ s => by rw [Json.text_value]]
  | array xs =>
    rw [Json.value, ofJson_array_eq_ok_iff, ofJson_array_eq_ok_iff, Json.values_eq_map]
    constructor
    · rintro ⟨a, b, c, d, hxs, htag, hposition, hline, htext⟩
      simp only [List.map_eq_cons_iff, List.map_eq_nil_iff] at hxs
      obtain ⟨a, _, rfl, rfl, b, _, rfl, rfl, c, _, rfl, rfl, d, _, rfl, rfl, rfl⟩ := hxs
      simp_all [Tag.decode_value]
    · rintro ⟨a, b, c, d, rfl, htag, hposition, hline, htext⟩
      exact ⟨a.value, b.value, c.value, d.value, rfl, by simpa [Tag.decode_value] using htag,
        by simpa using hposition, by simpa using hline, by simpa using htext⟩
  | _ => simp [Json.value, ofJson]

theorem exists_error_of_repeats {j : Json} (h : j.Repeats keys) : ∃ e, ofJson j = .error e := by
  refine exists_error_of_ne_ok fun t ht => ?_
  cases j with
  | object ms =>
    obtain ⟨key, hk, hlen⟩ := h
    obtain ⟨htag, hposition, hline, htext⟩ := ofJson_object_eq_ok_iff.1 ht
    rcases mem_keys_iff.1 hk with rfl | rfl | rfl | rfl
    · exact Json.not_given hlen htag
    · exact Json.not_given hlen hposition
    · exact Json.not_given hlen hline
    · exact Json.not_given hlen htext
  | _ => exact h

end Token

namespace RenamePolicy

def keys : List String := all.map name

theorem name_mem_keys (p : RenamePolicy) : p.name ∈ keys := by
  cases p <;> decide

theorem readsAlike {j : Json} (h : ¬j.Repeats keys) : ReadsAlike ofJson j := by
  intro p
  rw [ofJson_eq_ok_iff, ofJson_eq_ok_iff]
  cases j with
  | object ms =>
    rw [Json.value_eq_object_iff h p.name_mem_keys, Json.value]
    simp only [reduceCtorEq, false_or]
  | _ => simp [Json.value]

theorem exists_error_of_repeats {j : Json} (h : j.Repeats keys) : ∃ e, ofJson j = .error e := by
  refine exists_error_of_ne_ok fun p hp => ?_
  rcases ofJson_eq_ok_iff.1 hp with rfl | rfl
  · exact h
  · obtain ⟨key, -, hlen⟩ := h
    rw [valuesFor_cons] at hlen
    split at hlen <;> simp at hlen

end RenamePolicy

namespace Config

def policies : Json → List Json
  | .object ms => valuesFor "collision" ms
  | .array xs => xs.take 1
  | _ => []

/-- A key of the settings stands twice, or a key of a policy that is read for them. -/
def Repeats (j : Json) : Prop :=
  j.Repeats keys ∨ ∃ p ∈ policies j, p.Repeats RenamePolicy.keys

theorem readsAlike {j : Json} (h : ¬Repeats j) : ReadsAlike ofJson j := by
  intro c
  rw [Repeats, not_or] at h
  obtain ⟨hkeys, hpolicies⟩ := h
  have hcollision : ∀ p ∈ policies j, ReadsAlike decode p := fun p hp =>
    RenamePolicy.readsAlike fun hrepeats => hpolicies ⟨p, hp, hrepeats⟩
  have hflag (j : Json) : ReadsAlike Json.flag j := fun b => by rw [Json.flag_value]
  cases j with
  | object ms =>
    rw [policies] at hcollision
    rw [Json.value, ofJson_object_eq_ok_iff, ofJson_object_eq_ok_iff,
      Json.valuesFor_value hkeys (by decide), Json.valuesFor_value hkeys (by decide),
      Json.overlaid_map_value hcollision, Json.overlaid_map_value fun j _ => hflag j]
  | array xs =>
    rw [policies] at hcollision
    rw [Json.value, ofJson_array_eq_ok_iff, ofJson_array_eq_ok_iff, Json.values_eq_map,
      ← List.map_take, ← List.map_drop, Json.overlaid_map_value hcollision,
      Json.overlaid_map_value fun j _ => hflag j]
  | _ => simp [Json.value, ofJson]

theorem overlaid_policies {j : Json} {c : Config} (h : ofJson j = .ok c) :
    Overlaid decode default.collision (policies j) c.collision := by
  cases j with
  | object ms => exact (ofJson_object_eq_ok_iff.1 h).1
  | array xs => exact (ofJson_array_eq_ok_iff.1 h).1
  | _ => cases h

theorem exists_error_of_repeats {j : Json} (h : Repeats j) : ∃ e, ofJson j = .error e := by
  refine exists_error_of_ne_ok fun c hc => ?_
  rcases h with hkeys | ⟨p, hp, hrepeats⟩
  · cases j with
    | object ms =>
      obtain ⟨key, hk, hlen⟩ := hkeys
      obtain ⟨hcollision, hprotect⟩ := ofJson_object_eq_ok_iff.1 hc
      rcases mem_keys_iff.1 hk with rfl | rfl
      · exact Json.not_overlaid hlen hcollision
      · exact Json.not_overlaid hlen hprotect
    | _ => exact hkeys
  · rcases overlaid_policies hc with ⟨hnil, -⟩ | ⟨q, hq, hread⟩
    · simp [hnil] at hp
    · -- the one policy that is read is the one that repeats a key
      rw [hq, List.mem_singleton] at hp
      obtain ⟨e, he⟩ := RenamePolicy.exists_error_of_repeats hrepeats
      rw [hp] at he
      cases he.symm.trans hread

end Config

/-- The text and the value of a document give the same, or neither of them gives anything; where a
key is repeated, the text gives nothing. -/
def AgreeUnless (α : Type) [Decode α] (repeats : Prop) (text : String) (j : Json) : Prop :=
  (repeats → ∃ e, (decodeText text : Except DecodeError α) = .error e) ∧
  (¬repeats → ∀ a : α, decodeText text = .ok a ↔ decodeValue j = .ok a)

theorem agreeUnless {α : Type} [Decode α] {repeats : Prop} {text : String} {j : Json}
    (h : Json.Spells text.toList j)
    (herror : repeats → ∃ e, (decode j : Except DecodeError α) = .error e)
    (halike : ¬repeats → ReadsAlike (decode : Json → Except DecodeError α) j) :
    AgreeUnless α repeats text j := by
  have htext : (decodeText text : Except DecodeError α) = decode j := by
    rw [decodeText, Json.parse?_of_spells h]
  rw [AgreeUnless, htext]
  exact ⟨herror, fun hn a => (halike hn a).symm⟩

/-- What is read off a text is read off the value of its document, and the other way around. Only
the text shows that an object repeats a key, and it is refused then, if the key is one of those read
there. -/
theorem text_agrees_with_value (text : String) (j : Json) (h : Json.Spells text.toList j) :
    AgreeUnless Tag False text j ∧ AgreeUnless Token (j.Repeats Token.keys) text j ∧
    AgreeUnless RenamePolicy (j.Repeats RenamePolicy.keys) text j ∧
    AgreeUnless Config (Config.Repeats j) text j := by
  refine ⟨agreeUnless h False.elim fun _ t => ?_, ?_, ?_, ?_⟩
  · rw [Tag.decode_value]
  · exact agreeUnless h Token.exists_error_of_repeats Token.readsAlike
  · exact agreeUnless h RenamePolicy.exists_error_of_repeats RenamePolicy.readsAlike
  · exact agreeUnless h Config.exists_error_of_repeats Config.readsAlike

/-- A policy whose name stands twice, once with an escape: only the text is refused. -/
theorem text_agrees_with_value_repeated :
    let text := "\x7b \"warn\" :null,\"\\u0077arn\":null\x7d"
    let j : Json := .object [("warn", .null), ("warn", .null)]
    Json.Spells text.toList j ∧ j.Repeats RenamePolicy.keys ∧
      (∃ e, (decodeText text : Except DecodeError RenamePolicy) = .error e) ∧
      (decodeValue j : Except DecodeError RenamePolicy) = .ok .warn := by
  intro text j
  have hplain : Json.SpellsString "\"warn\"".toList "warn" :=
    ⟨_, Escaped.json_goesBy.forall₂_piece _, by decide⟩
  have hcode : Escaped.SpellsUnit ['0', '0', '7', '7'] (((0 * 16 + 0) * 16 + 7) * 16 + 7) :=
    .mk (by decide) (by decide) (by decide) (by decide)
  have hw : Escaped.Spells ['\\', 'u', '0', '0', '7', '7'] 'w' := .unit hcode
  have hescaped : Json.SpellsString "\"\\u0077arn\"".toList "warn" :=
    ⟨_, .cons hw (Escaped.json_goesBy.forall₂_piece "arn".toList), by decide⟩
  have hblank : Json.Blank [' '] := by simp [Json.Blank, Json.isBlank]
  let ms : List Json.Spelled :=
    [⟨"warn", [' '] ++ ("\"warn\"".toList ++ [' ']), .null, "null".toList⟩,
      ⟨"warn", [] ++ ("\"\\u0077arn\"".toList ++ []), .null, "null".toList⟩]
  have hkeys : ∀ m ∈ ms, Json.SpellsKey m.keyText m.key :=
    List.forall_mem_cons.2 ⟨⟨_, _, _, hblank, hplain, hblank, rfl⟩,
      List.forall_mem_singleton.2 ⟨_, _, _, Json.blank_nil, hescaped, Json.blank_nil, rfl⟩⟩
  have hvalues : ∀ m ∈ ms, Json.Spells m.valueText m.value :=
    List.forall_mem_cons.2 ⟨.null, List.forall_mem_singleton.2 .null⟩
  have htext : text.toList = '\x7b' :: (Json.listed (ms.map Json.Spelled.text) ++ ['\x7d']) := by
    decide
  have h : Json.Spells text.toList j := htext ▸ .object (by simp [ms]) hkeys hvalues
  have hrepeats : j.Repeats RenamePolicy.keys := ⟨"warn", by decide, by decide⟩
  obtain ⟨-, -, hpolicy, -⟩ := text_agrees_with_value text j h
  exact ⟨h, hrepeats, hpolicy.1 hrepeats, rfl⟩

end Lexeme
