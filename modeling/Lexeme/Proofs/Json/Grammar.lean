import Lexeme.Proofs.Json.Spelling

/-!
# The texts of a document

One document has many texts: its numbers and strings may be spelled in many ways, and blanks may
stand around its parts. Main statement: a document is read from each of its texts.
-/

namespace Lexeme
namespace Json

def Blank (s : List Char) : Prop := ∀ c ∈ s, isBlank c = true

def SpellsString (s : List Char) (t : String) : Prop :=
  ∃ ps, List.Forall₂ Escaped.Spells ps t.toList ∧ s = '"' :: (ps.flatten ++ ['"'])

def SpellsKey (s : List Char) (key : String) : Prop :=
  ∃ before t after, Blank before ∧ SpellsString t key ∧ Blank after ∧ s = before ++ (t ++ after)

structure Spelled where
  key : String
  keyText : List Char
  value : Json
  valueText : List Char

namespace Spelled

def text (m : Spelled) : List Char := m.keyText ++ ':' :: m.valueText

def member (m : Spelled) : String × Json := (m.key, m.value)

end Spelled

def listed (texts : List (List Char)) : List Char := [','].intercalate texts

/-- The texts of a document. -/
inductive Spells : List Char → Json → Prop
  | null : Spells "null".toList null
  | true : Spells "true".toList (boolean true)
  | false : Spells "false".toList (boolean false)
  | number {s : List Char} {n : Number} (h : Number.Spells s n) : Spells s (number n)
  | string {s : List Char} {t : String} (h : SpellsString s t) : Spells s (string t)
  | noElements {s : List Char} (h : Blank s) : Spells ('[' :: (s ++ [']'])) (array [])
  | array {xs : List (List Char × Json)} (hn : xs ≠ []) (h : ∀ x ∈ xs, Spells x.1 x.2) :
    Spells ('[' :: (listed (xs.map Prod.fst) ++ [']'])) (array (xs.map Prod.snd))
  | noMembers {s : List Char} (h : Blank s) : Spells ('\x7b' :: (s ++ ['\x7d'])) (object [])
  | object {ms : List Spelled} (hn : ms ≠ []) (hk : ∀ m ∈ ms, SpellsKey m.keyText m.key)
    (h : ∀ m ∈ ms, Spells m.valueText m.value) :
    Spells ('\x7b' :: (listed (ms.map Spelled.text) ++ ['\x7d'])) (object (ms.map Spelled.member))
  | blanks {before s after : List Char} {j : Json} (hb : Blank before) (h : Spells s j)
    (ha : Blank after) : Spells (before ++ (s ++ after)) j

@[simp] theorem listed_singleton (s : List Char) : listed [s] = s := by
  simp [listed, List.intercalate]

theorem listed_cons_cons (s t : List Char) (texts : List (List Char)) :
    listed (s :: t :: texts) = s ++ ',' :: listed (t :: texts) := by
  simp [listed, List.intercalate]

section

variable {s t rest : List Char} {c : Char} {fuel : Nat}

theorem blank_nil : Blank [] := fun _ hc => absurd hc List.not_mem_nil

theorem skipBlanks_cons {c : Char} (h : isBlank c = false) (s : List Char) :
    skipBlanks (c :: s) = c :: s := by
  simp [skipBlanks, h]

theorem skipBlanks_append (h : Blank s) (rest : List Char) :
    skipBlanks (s ++ rest) = skipBlanks rest :=
  List.dropWhile_append_of_pos h

theorem skipBlanks_append_cons {c : Char} (h : Blank s) (hc : isBlank c = false)
    (rest : List Char) : skipBlanks (s ++ c :: rest) = c :: rest := by
  rw [skipBlanks_append h, skipBlanks_cons hc]

@[simp] theorem skipBlanks_skipBlanks (s : List Char) :
    skipBlanks (skipBlanks s) = skipBlanks s := by
  induction s with
  | nil => rfl
  | cons c s ih =>
    by_cases h : isBlank c = true
    · simpa [skipBlanks, h] using ih
    · simp [skipBlanks, h]

theorem read?_skipBlanks (fuel : Nat) (s : List Char) :
    read? fuel (skipBlanks s) = read? fuel s := by
  cases fuel with
  | zero => rfl
  | succ fuel => rw [read?, read?, skipBlanks_skipBlanks]

theorem elements?_skipBlanks (fuel : Nat) (s : List Char) :
    elements? fuel (skipBlanks s) = elements? fuel s := by
  cases fuel with
  | zero => rfl
  | succ fuel => rw [elements?, elements?, read?_skipBlanks]

theorem members?_skipBlanks (fuel : Nat) (s : List Char) :
    members? fuel (skipBlanks s) = members? fuel s := by
  cases fuel with
  | zero => rfl
  | succ fuel => rw [members?, members?, skipBlanks_skipBlanks]

theorem ends_append (h : Blank s) (hr : Number.Ends rest) : Number.Ends (s ++ rest) := by
  cases s with
  | nil => exact hr
  | cons c s =>
    have hc : isBlank c = true := h c List.mem_cons_self
    have key : ∀ c, isBlank c = true → c.isDigit = false ∧ c ≠ '.' ∧ c ≠ 'e' ∧ c ≠ 'E' := by
      intro c hc
      simp only [isBlank, Bool.or_eq_true, decide_eq_true_eq] at hc
      rcases hc with ((rfl | rfl) | rfl) | rfl <;> decide
    exact Number.ends_cons (key c hc).1 (key c hc).2 _

end

section

variable {fuel : Nat} {s r t u rest : List Char} {x v : Json} {xs : List Json}
  {k : Option String} {ms : List (Option String × Json)}

theorem read?_of_scalar? {c : Char} (hb : isBlank c = false) (hc : c ≠ '[' ∧ c ≠ '\x7b') :
    read? (fuel + 1) (c :: s) = scalar? (c :: s) := by
  rw [read?, skipBlanks_cons hb]
  split <;> simp_all

theorem elements?_last (hx : read? fuel s = some (x, r)) (hr : skipBlanks r = ']' :: rest) :
    elements? (fuel + 1) s = some ([x], rest) := by
  simp [elements?, hx, hr]

theorem elements?_more (hx : read? fuel s = some (x, r)) (hr : skipBlanks r = ',' :: t)
    (ht : elements? fuel t = some (xs, rest)) :
    elements? (fuel + 1) s = some (x :: xs, rest) := by
  simp [elements?, hx, hr, ht]

theorem members?_last (hk : string? (skipBlanks s) = some (k, r)) (hr : skipBlanks r = ':' :: t)
    (hv : read? fuel t = some (v, u)) (hu : skipBlanks u = '\x7d' :: rest) :
    members? (fuel + 1) s = some ([(k, v)], rest) := by
  simp [members?, hk, hr, hv, hu]

theorem members?_more {t' : List Char} (hk : string? (skipBlanks s) = some (k, r))
    (hr : skipBlanks r = ':' :: t) (hv : read? fuel t = some (v, u))
    (hu : skipBlanks u = ',' :: t') (ht : members? fuel t' = some (ms, rest)) :
    members? (fuel + 1) s = some ((k, v) :: ms, rest) := by
  simp [members?, hk, hr, hv, hu, ht]

end

theorem scalar?_of_not_mem {c : Char} (h : c ∉ ['"', 'n', 't', 'f']) (s : List Char) :
    scalar? (c :: s) = (Number.read? (c :: s)).map fun (n, r) => (number n, r) := by
  simp only [List.mem_cons, List.not_mem_nil, or_false, not_or] at h
  obtain ⟨hq, hn, ht, hf⟩ := h
  unfold scalar?
  split <;> simp_all

theorem ofMembers_map_some (ms : List (String × Json)) :
    ofMembers (ms.map fun m => (some m.1, m.2)) = object ms := by
  have h : (ms.map fun m => (some m.1, m.2)).mapM keyed? = some ms := by
    induction ms with
    | nil => rfl
    | cons m ms ih => simp [keyed?, ih]
  rw [ofMembers, h]
  rfl

def Opens (s : List Char) : Prop :=
  ∃ c t, (c ≠ ']' ∧ c ≠ '\x7d') ∧ ∀ rest, skipBlanks (s ++ rest) = c :: (t ++ rest)

theorem opens_cons {c : Char} (hb : isBlank c = false) (hc : c ≠ ']' ∧ c ≠ '\x7d')
    (s : List Char) : Opens (c :: s) :=
  ⟨c, s, hc, fun rest => skipBlanks_cons hb (s ++ rest)⟩

theorem Opens.blanks {before s : List Char} (hb : Blank before) (h : Opens s) (after : List Char) :
    Opens (before ++ (s ++ after)) := by
  obtain ⟨c, t, hc, ht⟩ := h
  refine ⟨c, t ++ after, hc, fun rest => ?_⟩
  rw [List.append_assoc, skipBlanks_append hb, List.append_assoc, ht, List.append_assoc]

theorem opens_listed {texts : List (List Char)} (hn : texts ≠ []) (h : ∀ s ∈ texts, Opens s) :
    Opens (listed texts) := by
  obtain ⟨s, texts, rfl⟩ := List.exists_cons_of_ne_nil hn
  have hs : Opens s := h s List.mem_cons_self
  cases texts with
  | nil => rwa [listed_singleton]
  | cons t texts =>
    rw [listed_cons_cons]
    exact hs.blanks blank_nil _

theorem SpellsString.exists_eq_cons {s : List Char} {t : String} (h : SpellsString s t) :
    ∃ r, s = '"' :: r := by
  obtain ⟨ps, -, rfl⟩ := h
  exact ⟨_, rfl⟩

theorem SpellsString.opens {s : List Char} {t : String} (h : SpellsString s t) : Opens s := by
  obtain ⟨r, rfl⟩ := h.exists_eq_cons
  exact opens_cons (by decide) (by decide) r

theorem SpellsKey.opens {s : List Char} {key : String} (h : SpellsKey s key) : Opens s := by
  obtain ⟨before, t, after, hb, ht, ha, rfl⟩ := h
  exact ht.opens.blanks hb after

theorem Spells.opens {s : List Char} {j : Json} (h : Spells s j) : Opens s := by
  induction h with
  | null | true | false => exact opens_cons (by decide) (by decide) _
  | number h =>
    obtain ⟨c, t, rfl, hc⟩ := Number.head?_spells h
    rcases hc with rfl | hc
    · exact opens_cons (by decide) (by decide) t
    · have hclose : c ≠ ']' ∧ c ≠ '\x7d' := by simp [Number.ne_of_isDigit hc]
      exact opens_cons (by simp [isBlank, Number.ne_of_isDigit hc]) hclose t
  | string h => exact h.opens
  | noElements | array | noMembers | object => exact opens_cons (by decide) (by decide) _
  | blanks hb h ha ih => exact ih.blanks hb _

/-- The document is read off the front of the text in as many steps as it has characters. Blanks
behind it may be left over. -/
def ReadFrom (s : List Char) (j : Json) : Prop :=
  ∀ fuel rest, s.length ≤ fuel → Number.Ends rest →
    ∃ r, read? fuel (s ++ rest) = some (j, r) ∧ skipBlanks r = skipBlanks rest

theorem readFrom_of_scalar? {s : List Char} {j : Json} {c : Char} {t : List Char}
    (hs : s = c :: t) (hb : isBlank c = false) (hc : c ≠ '[' ∧ c ≠ '\x7b')
    (h : ∀ rest, Number.Ends rest → scalar? (s ++ rest) = some (j, rest)) : ReadFrom s j := by
  intro fuel rest hf hr
  subst hs
  obtain ⟨fuel, rfl⟩ := Nat.exists_eq_add_one.2 (Nat.lt_of_lt_of_le (Nat.zero_lt_succ _) hf)
  exact ⟨rest, (read?_of_scalar? hb hc).trans (h rest hr), rfl⟩

theorem string?_of_spells {s : List Char} {t : String} (h : SpellsString s t) (rest : List Char) :
    string? (s ++ rest) = some (some t, rest) := by
  obtain ⟨ps, hps, rfl⟩ := h
  have hread : Quoting.json.read? ('"' :: (ps.flatten ++ '"' :: rest)) = some (t.toList, rest) :=
    (Quoting.read?_eq_some_iff Escaped.json_goesBy).2 ⟨ps, hps, rfl⟩
  simp [string?, hread]

theorem scalar?_of_spellsString {s : List Char} {t : String} (h : SpellsString s t)
    (rest : List Char) : scalar? (s ++ rest) = some (string t, rest) := by
  have hread := string?_of_spells h rest
  obtain ⟨r, rfl⟩ := h.exists_eq_cons
  rw [List.cons_append] at hread ⊢
  rw [scalar?, hread]
  rfl

theorem scalar?_of_spellsNumber {s rest : List Char} {n : Number} (h : Number.Spells s n)
    (hr : Number.Ends rest) : scalar? (s ++ rest) = some (number n, rest) := by
  have hread := Number.read?_of_spells h hr
  obtain ⟨c, t, rfl, hc⟩ := Number.head?_spells h
  have hm : c ∉ ['"', 'n', 't', 'f'] := by
    rcases hc with rfl | hc
    · decide
    · simp [Number.ne_of_isDigit hc]
  rw [List.cons_append] at hread ⊢
  rw [scalar?_of_not_mem hm, hread]
  rfl

theorem readFrom_blanks {before s after : List Char} {j : Json} (hb : Blank before)
    (h : ReadFrom s j) (ha : Blank after) : ReadFrom (before ++ (s ++ after)) j := by
  intro fuel rest hf hr
  simp only [List.length_append] at hf
  obtain ⟨r, hread, hrest⟩ := h fuel (after ++ rest) (by omega) (ends_append ha hr)
  refine ⟨r, ?_, hrest.trans (skipBlanks_append ha rest)⟩
  rw [List.append_assoc, ← read?_skipBlanks, skipBlanks_append hb, read?_skipBlanks,
    List.append_assoc, hread]

section

variable {s : List Char} {xs : List (List Char × Json)} {fuel : Nat}

/-- A document read up to what parts it from the next one or closes its list. -/
theorem ReadFrom.exists_read? {j : Json} {c : Char} (h : ReadFrom s j)
    (hc : c ∈ [',', ']', '\x7d']) (hf : s.length ≤ fuel) (rest : List Char) :
    ∃ r, read? fuel (s ++ c :: rest) = some (j, r) ∧ skipBlanks r = c :: rest := by
  have hends : isBlank c = false ∧ Number.Ends (c :: rest) := by
    simp only [List.mem_cons, List.not_mem_nil, or_false] at hc
    rcases hc with rfl | rfl | rfl <;>
      exact ⟨by decide, Number.ends_cons (by decide) (by decide) rest⟩
  obtain ⟨r, hread, hr⟩ := h fuel (c :: rest) hf hends.2
  exact ⟨r, hread, hr.trans (skipBlanks_cons hends.1 rest)⟩

theorem read?_list (hs : Opens s) (fuel : Nat) (rest : List Char) :
    read? (fuel + 1) ('[' :: (s ++ rest)) =
      (elements? fuel (s ++ rest)).map fun (xs, r) => (array xs, r) := by
  obtain ⟨c, t, hc, ht⟩ := hs
  rw [← elements?_skipBlanks, read?, skipBlanks_cons (by decide)]
  simp only [ht]
  split <;> simp_all

theorem elements?_listed (h : ∀ x ∈ xs, ReadFrom x.1 x.2) (hn : xs ≠ [])
    (hf : (listed (xs.map Prod.fst)).length < fuel) (rest : List Char) :
    elements? fuel (listed (xs.map Prod.fst) ++ ']' :: rest) = some (xs.map Prod.snd, rest) := by
  induction xs generalizing fuel with
  | nil => exact absurd rfl hn
  | cons x xs ih =>
    obtain ⟨fuel, rfl⟩ := Nat.exists_eq_add_one.2 (Nat.zero_lt_of_lt hf)
    have hx : ReadFrom x.1 x.2 := h x List.mem_cons_self
    cases xs with
    | nil =>
      simp only [List.map_cons, List.map_nil, listed_singleton] at hf ⊢
      obtain ⟨r, hread, hr⟩ := hx.exists_read? (c := ']') (by decide) (Nat.lt_succ_iff.1 hf) rest
      exact elements?_last hread hr
    | cons y ys =>
      simp only [List.map_cons, listed_cons_cons, List.length_append, List.length_cons] at hf
      have hle : (listed ((y :: ys).map Prod.fst)).length < fuel := by
        rw [List.map_cons]
        omega
      have hmore := ih (fun z hz => h z (List.mem_cons_of_mem x hz)) (by simp) hle
      have hlen : x.1.length ≤ fuel := by omega
      obtain ⟨r, hread, hr⟩ := hx.exists_read? (c := ',') (by decide) hlen _
      rw [List.map_cons, List.map_cons, listed_cons_cons, List.append_assoc, List.cons_append]
      exact elements?_more hread hr hmore

theorem readFrom_array (hn : xs ≠ []) (hs : ∀ x ∈ xs, Opens x.1)
    (h : ∀ x ∈ xs, ReadFrom x.1 x.2) :
    ReadFrom ('[' :: (listed (xs.map Prod.fst) ++ [']'])) (array (xs.map Prod.snd)) := by
  intro fuel rest hf _
  simp only [List.length_cons, List.length_append, List.length_nil] at hf
  obtain ⟨fuel, rfl⟩ := Nat.exists_eq_add_one.2 (show 0 < fuel by omega)
  have hopens : Opens (listed (xs.map Prod.fst)) := by
    refine opens_listed (by simpa using hn) fun s hmem => ?_
    obtain ⟨x, hx, rfl⟩ := List.mem_map.1 hmem
    exact hs x hx
  have hle : (listed (xs.map Prod.fst)).length < fuel := by omega
  have hread := elements?_listed h hn hle rest
  refine ⟨rest, ?_, rfl⟩
  rw [List.cons_append, List.append_assoc, read?_list hopens, List.singleton_append, hread]
  rfl

theorem readFrom_noElements (h : Blank s) : ReadFrom ('[' :: (s ++ [']'])) (array []) := by
  intro fuel rest hf _
  obtain ⟨fuel, rfl⟩ := Nat.exists_eq_add_one.2 (Nat.lt_of_lt_of_le (Nat.zero_lt_succ _) hf)
  refine ⟨rest, ?_, rfl⟩
  have hskip : skipBlanks (s ++ ']' :: rest) = ']' :: rest :=
    skipBlanks_append_cons h (by decide) rest
  rw [List.cons_append, List.append_assoc, List.singleton_append, read?,
    skipBlanks_cons (by decide)]
  simp only [hskip]

end

section

variable {s : List Char} {key : String} {ms : List Spelled} {fuel : Nat}

theorem string?_of_spellsKey (h : SpellsKey s key) (rest : List Char) :
    ∃ r, string? (skipBlanks (s ++ ':' :: rest)) = some (some key, r) ∧
      skipBlanks r = ':' :: rest := by
  obtain ⟨before, t, after, hb, ht, ha, rfl⟩ := h
  refine ⟨after ++ ':' :: rest, ?_, ?_⟩
  · obtain ⟨r, rfl⟩ := ht.exists_eq_cons
    rw [List.append_assoc, skipBlanks_append hb, List.append_assoc, List.cons_append,
      skipBlanks_cons (by decide), ← List.cons_append, string?_of_spells ht]
  · exact skipBlanks_append_cons ha (by decide) rest

theorem read?_members (hs : Opens s) (fuel : Nat) (rest : List Char) :
    read? (fuel + 1) ('\x7b' :: (s ++ rest)) =
      (members? fuel (s ++ rest)).map fun (ms, r) => (ofMembers ms, r) := by
  obtain ⟨c, t, hc, ht⟩ := hs
  rw [← members?_skipBlanks, read?, skipBlanks_cons (by decide)]
  simp only [ht]
  split <;> simp_all

theorem members?_listed (hk : ∀ m ∈ ms, SpellsKey m.keyText m.key)
    (h : ∀ m ∈ ms, ReadFrom m.valueText m.value) (hn : ms ≠ [])
    (hf : (listed (ms.map Spelled.text)).length < fuel) (rest : List Char) :
    members? fuel (listed (ms.map Spelled.text) ++ '\x7d' :: rest) =
      some ((ms.map Spelled.member).map fun m => (some m.1, m.2), rest) := by
  induction ms generalizing fuel with
  | nil => exact absurd rfl hn
  | cons m ms ih =>
    obtain ⟨fuel, rfl⟩ := Nat.exists_eq_add_one.2 (Nat.zero_lt_of_lt hf)
    have hm : ReadFrom m.valueText m.value := h m List.mem_cons_self
    have hkey := hk m List.mem_cons_self
    cases ms with
    | nil =>
      simp only [List.map_cons, List.map_nil, listed_singleton, Spelled.text, List.length_append,
        List.length_cons] at hf ⊢
      have hlen : m.valueText.length ≤ fuel := by omega
      obtain ⟨r, hread, hr⟩ := hm.exists_read? (c := '\x7d') (by decide) hlen rest
      obtain ⟨u, hstring, hu⟩ := string?_of_spellsKey hkey (m.valueText ++ '\x7d' :: rest)
      rw [List.append_assoc, List.cons_append]
      exact members?_last hstring hu hread hr
    | cons l ls =>
      simp only [List.map_cons, listed_cons_cons, List.length_append, List.length_cons] at hf
      have hle : (listed ((l :: ls).map Spelled.text)).length < fuel := by
        rw [List.map_cons]
        omega
      have hmore := ih (fun z hz => hk z (List.mem_cons_of_mem m hz))
        (fun z hz => h z (List.mem_cons_of_mem m hz)) (by simp) hle
      have hlen : m.valueText.length ≤ fuel := by
        simp only [Spelled.text, List.length_append, List.length_cons] at hf
        omega
      obtain ⟨r, hread, hr⟩ := hm.exists_read? (c := ',') (by decide) hlen
        (listed ((l :: ls).map Spelled.text) ++ '\x7d' :: rest)
      obtain ⟨u, hstring, hu⟩ := string?_of_spellsKey hkey (m.valueText ++ ',' ::
        (listed ((l :: ls).map Spelled.text) ++ '\x7d' :: rest))
      rw [List.map_cons, List.map_cons, listed_cons_cons, Spelled.text]
      simp only [List.append_assoc, List.cons_append]
      exact members?_more hstring hu hread hr hmore

theorem readFrom_object (hn : ms ≠ []) (hk : ∀ m ∈ ms, SpellsKey m.keyText m.key)
    (h : ∀ m ∈ ms, ReadFrom m.valueText m.value) :
    ReadFrom ('\x7b' :: (listed (ms.map Spelled.text) ++ ['\x7d']))
      (object (ms.map Spelled.member)) := by
  intro fuel rest hf _
  simp only [List.length_cons, List.length_append, List.length_nil] at hf
  obtain ⟨fuel, rfl⟩ := Nat.exists_eq_add_one.2 (show 0 < fuel by omega)
  have hopens : Opens (listed (ms.map Spelled.text)) := by
    refine opens_listed (by simpa using hn) fun s hmem => ?_
    obtain ⟨m, hm, rfl⟩ := List.mem_map.1 hmem
    exact (hk m hm).opens.blanks blank_nil _
  have hle : (listed (ms.map Spelled.text)).length < fuel := by omega
  have hread := members?_listed hk h hn hle rest
  refine ⟨rest, ?_, rfl⟩
  rw [List.cons_append, List.append_assoc, read?_members hopens, List.singleton_append, hread]
  exact congrArg (fun j => some (j, rest)) (ofMembers_map_some _)

theorem readFrom_noMembers (h : Blank s) : ReadFrom ('\x7b' :: (s ++ ['\x7d'])) (object []) := by
  intro fuel rest hf _
  obtain ⟨fuel, rfl⟩ := Nat.exists_eq_add_one.2 (Nat.lt_of_lt_of_le (Nat.zero_lt_succ _) hf)
  refine ⟨rest, ?_, rfl⟩
  have hskip : skipBlanks (s ++ '\x7d' :: rest) = '\x7d' :: rest :=
    skipBlanks_append_cons h (by decide) rest
  rw [List.cons_append, List.append_assoc, List.singleton_append, read?,
    skipBlanks_cons (by decide)]
  simp only [hskip]

end

theorem Spells.readFrom {s : List Char} {j : Json} (h : Spells s j) : ReadFrom s j := by
  induction h with
  | null =>
    refine readFrom_of_scalar? (c := 'n') rfl (by decide) (by decide) fun rest _ => ?_
    simp [scalar?, word?]
  | true =>
    refine readFrom_of_scalar? (c := 't') rfl (by decide) (by decide) fun rest _ => ?_
    simp [scalar?, word?]
  | false =>
    refine readFrom_of_scalar? (c := 'f') rfl (by decide) (by decide) fun rest _ => ?_
    simp [scalar?, word?]
  | number h =>
    obtain ⟨c, t, hs, hc⟩ := Number.head?_spells h
    refine readFrom_of_scalar? hs ?_ ?_ fun rest hr => scalar?_of_spellsNumber h hr
    · rcases hc with rfl | hc
      · decide
      · simp [isBlank, Number.ne_of_isDigit hc]
    · rcases hc with rfl | hc
      · decide
      · simp [Number.ne_of_isDigit hc]
  | string h =>
    obtain ⟨r, hs⟩ := h.exists_eq_cons
    exact readFrom_of_scalar? hs (by decide) (by decide)
      fun rest _ => scalar?_of_spellsString h rest
  | noElements h => exact readFrom_noElements h
  | array hn h ih => exact readFrom_array hn (fun x hx => (h x hx).opens) ih
  | noMembers h => exact readFrom_noMembers h
  | object hn hk h ih => exact readFrom_object hn hk ih
  | blanks hb h ha ih => exact readFrom_blanks hb ih ha

theorem parse?_of_readFrom {text : String} {j : Json} (h : ReadFrom text.toList j) :
    parse? text = some j := by
  have hf : text.toList.length ≤ fuelFor text.toList := by
    rw [fuelFor]
    omega
  obtain ⟨r, hread, hr⟩ := h (fuelFor text.toList) [] hf Number.ends_nil
  rw [List.append_nil] at hread
  simp only [parse?, hread, Option.bind_some, hr]
  rfl

/-- A text is read as the document it is a text of. -/
theorem parse?_of_spells {text : String} {j : Json} (h : Spells text.toList j) :
    parse? text = some j := parse?_of_readFrom h.readFrom

end Json
end Lexeme
