import Lexeme.Text.Place
import Mathlib.Data.List.TakeWhile

/-!
# Lines around a place

The lines of a source are what is left when it is split at its line feeds. Main statement: a place
cuts one of them in two; the lines in front of that are as many as line feeds stand before the
place, and the last of them and the first of those behind it are its neighbours.
-/

namespace Lexeme

theorem ne_break_of_not_mem {s : List Char} (h : '\n' ∉ s) : ∀ c ∈ s, decide (c ≠ '\n') = true := by
  intro c hc
  rw [decide_eq_true_iff]
  rintro rfl
  exact h hc

theorem eq_line_or_exists_break (s : List Char) :
    ('\n' ∉ s ∧ s.takeWhile (· ≠ '\n') = s ∧ s.dropWhile (· ≠ '\n') = []) ∨
      ∃ a b, s = a ++ '\n' :: b ∧ '\n' ∉ a ∧ s.takeWhile (· ≠ '\n') = a ∧
        s.dropWhile (· ≠ '\n') = '\n' :: b := by
  by_cases hs : '\n' ∈ s
  · obtain ⟨a, b, rfl, ha⟩ := List.eq_append_cons_of_mem hs
    refine .inr ⟨a, b, rfl, ha, ?_, ?_⟩
    · rw [List.takeWhile_append_of_pos (ne_break_of_not_mem ha)]
      simp
    · rw [List.dropWhile_append_of_pos (ne_break_of_not_mem ha)]
      simp
  · have hkept := ne_break_of_not_mem hs
    exact .inl ⟨hs, List.takeWhile_eq_self_iff.2 hkept, List.dropWhile_eq_nil_iff.2 hkept⟩

theorem head?_splitOn (s : List Char) :
    (s.splitOn '\n').head? = some (s.takeWhile (· ≠ '\n')) := by
  rcases eq_line_or_exists_break s with ⟨hs, ht, -⟩ | ⟨a, b, rfl, ha, ht, -⟩
  · rw [List.splitOn_eq_singleton hs, ht, List.head?_cons]
  · rw [List.splitOn_append_cons_self_of_not_mem ha, ht, List.head?_cons]

theorem getLast?_splitOn (s : List Char) :
    (s.splitOn '\n').getLast? = some (s.reverse.takeWhile (· ≠ '\n')).reverse := by
  rcases eq_line_or_exists_break s.reverse with ⟨hs, ht, -⟩ | ⟨a, b, he, ha, ht, -⟩
  · rw [ht, List.splitOn_eq_singleton (by simpa using hs), List.reverse_reverse]
    rfl
  · have hs : s = b.reverse ++ '\n' :: a.reverse := by
      rw [← s.reverse_reverse, he]
      simp
    have hlast : a.reverse.splitOn '\n' = [a.reverse] :=
      List.splitOn_eq_singleton (by simpa using ha)
    rw [ht, hs, List.splitOn_append_cons_self, hlast]
    exact List.getLast?_concat

theorem length_splitOn (s : List Char) : (s.splitOn '\n').length = s.count '\n' + 1 := by
  induction s with
  | nil => rfl
  | cons c s ih =>
    rw [List.splitOn_cons_eq_if_modifyHead]
    by_cases hc : c = '\n' <;> simp [hc, ih]

theorem break_not_mem_takeWhile (s : List Char) : '\n' ∉ s.takeWhile (· ≠ '\n') := by
  intro h
  simpa using List.mem_takeWhile_imp h

theorem secondLine?_eq_none_iff {s : List Char} : secondLine? s = none ↔ '\n' ∉ s := by
  rcases eq_line_or_exists_break s with ⟨hs, -, hd⟩ | ⟨a, b, rfl, -, -, hd⟩
  · rw [secondLine?, hd]
    exact iff_of_true rfl hs
  · rw [secondLine?, hd]
    exact iff_of_false (Option.some_ne_none _) (by simp)

theorem exists_of_secondLine? {s t : List Char} (h : secondLine? s = some t) :
    ∃ r, r ⊆ s ∧ t = r.takeWhile (· ≠ '\n') := by
  rcases eq_line_or_exists_break s with ⟨-, -, hd⟩ | ⟨a, b, rfl, -, -, hd⟩
  · rw [secondLine?, hd] at h
    cases h
  · rw [secondLine?, hd] at h
    cases h
    exact ⟨b, fun c hc => by simp [hc], rfl⟩

theorem break_not_mem_secondLine? {s t : List Char} (h : secondLine? s = some t) : '\n' ∉ t := by
  obtain ⟨r, -, rfl⟩ := exists_of_secondLine? h
  exact break_not_mem_takeWhile r

theorem secondLine?_subset {s t : List Char} (h : secondLine? s = some t) : t ⊆ s := by
  obtain ⟨r, hr, rfl⟩ := exists_of_secondLine? h
  exact fun c hc => hr ((List.takeWhile_prefix _).subset hc)

theorem byteLength_eq_utf8ByteSize (s : List Char) :
    byteLength s = (String.ofList s).utf8ByteSize := by
  induction s with
  | nil => rfl
  | cons c s ih =>
    have hs : String.ofList (c :: s) = String.singleton c ++ String.ofList s := by
      rw [String.singleton_eq_ofList, ← String.ofList_append, List.singleton_append]
    rw [byteLength_cons, ih, hs, String.utf8ByteSize_append, String.utf8ByteSize_singleton]

theorem byteLength_toList (s : String) : byteLength s.toList = s.utf8ByteSize := by
  rw [byteLength_eq_utf8ByteSize, String.ofList_toList]

theorem length_le_byteLength (s : List Char) : s.length ≤ byteLength s := by
  induction s with
  | nil => exact Nat.le_refl _
  | cons c s ih =>
    have hc := c.utf8Size_pos
    rw [List.length_cons, byteLength_cons]
    omega

theorem dropReturns_eq_nil_iff {s : List Char} : dropReturns s = [] ↔ ∀ c ∈ s, c = '\r' := by
  simp [dropReturns]

theorem dropReturns_append (s t : List Char) :
    dropReturns (s ++ t) = if dropReturns t = [] then dropReturns s else s ++ dropReturns t := by
  simp only [dropReturns, List.reverse_append, List.dropWhile_append, List.isEmpty_iff,
    List.reverse_eq_nil_iff]
  split
  · rfl
  · rw [List.reverse_append, List.reverse_reverse]

theorem mem_of_mem_dropReturns {c : Char} {s : List Char} (h : c ∈ dropReturns s) : c ∈ s := by
  rw [dropReturns, List.mem_reverse] at h
  exact List.mem_reverse.1 ((List.dropWhile_sublist _).subset h)

namespace Place

theorem source_reverse (s t : List Char) : (Place.mk s.reverse t).source = s ++ t := by
  rw [source, List.reverse_reverse]

theorem index_reverse (s t : List Char) : (Place.mk s.reverse t).index = s.count '\n' :=
  List.count_reverse

theorem at?_byteLength (s t : List Char) : at? (s ++ t) (byteLength s) = some ⟨s.reverse, t⟩ := by
  rw [at?_eq_some_iff]
  exact ⟨source_reverse s t, byteLength_reverse s⟩

theorem at?_eq_none_iff {s : String} {n : Nat} :
    at? s.toList n = none ↔ ¬String.Pos.Raw.IsValid s ⟨n⟩ := by
  rw [Option.eq_none_iff_forall_ne_some, String.Pos.Raw.isValid_iff_exists_append]
  constructor
  · rintro h ⟨s₁, s₂, rfl, hn⟩
    obtain rfl : n = s₁.utf8ByteSize := congrArg String.Pos.Raw.byteIdx hn
    rw [String.toList_append, ← byteLength_toList] at h
    exact h _ (at?_byteLength s₁.toList s₂.toList)
  · rintro h p hp
    obtain ⟨hsource, rfl⟩ := at?_eq_some_iff.1 hp
    refine h ⟨String.ofList p.before.reverse, String.ofList p.after, ?_, ?_⟩
    · rw [← String.ofList_append, ← source, hsource, String.ofList_toList]
    · rw [← byteLength_reverse, byteLength_eq_utf8ByteSize]
      rfl

def earlier (p : Place) : List (List Char) :=
  match p.before.dropWhile (· ≠ '\n') with
  | [] => []
  | _ :: r => r.reverse.splitOn '\n'

def later (p : Place) : List (List Char) :=
  match p.after.dropWhile (· ≠ '\n') with
  | [] => []
  | _ :: r => r.splitOn '\n'

variable (p : Place)

theorem exists_head : ∃ head, p.before.reverse = head ++ p.lead ∧ '\n' ∉ p.lead ∧
    (head = [] ∨ ∃ front, head = front ++ ['\n']) := by
  rcases eq_line_or_exists_break p.before with ⟨hb, ht, -⟩ | ⟨a, b, hb, ha, ht, -⟩
  · refine ⟨[], ?_, ?_, .inl rfl⟩
    · rw [lead, ht, List.nil_append]
    · rwa [lead, ht, List.mem_reverse]
  · refine ⟨b.reverse ++ ['\n'], ?_, ?_, .inr ⟨b.reverse, rfl⟩⟩
    · rw [lead, ht, hb]
      simp
    · rwa [lead, ht, List.mem_reverse]

/-- The lines of a source, told from a place in it. -/
theorem splitOn_source : p.source.splitOn '\n' = p.earlier ++ p.current :: p.later := by
  -- what the line and all behind it are split into
  have hrest : (p.lead ++ p.after).splitOn '\n' = p.current :: p.later := by
    obtain ⟨-, -, hlead, -⟩ := p.exists_head
    rcases eq_line_or_exists_break p.after with ⟨ha, ht, hd⟩ | ⟨a, b, ha, hn, ht, hd⟩
    · rw [current, trail, later, ht, hd, List.splitOn_eq_singleton]
      simp [hlead, ha]
    · rw [current, trail, later, ht, hd, ha, ← List.append_assoc,
        List.splitOn_append_cons_self_of_not_mem]
      simp [hlead, hn]
  rcases eq_line_or_exists_break p.before with ⟨-, ht, hd⟩ | ⟨a, b, hb, -, ht, hd⟩
  · have hlead : p.before.reverse = p.lead := by rw [lead, ht]
    rw [source, hlead, hrest, earlier, hd, List.nil_append]
  · have hlead : p.before.reverse = b.reverse ++ '\n' :: p.lead := by
      rw [lead, ht, hb]
      simp
    rw [source, hlead, List.append_assoc, List.cons_append, List.splitOn_append_cons_self, hrest,
      earlier, hd]

theorem length_earlier : p.earlier.length = p.index := by
  rcases eq_line_or_exists_break p.before with ⟨hb, -, hd⟩ | ⟨a, b, hb, ha, -, hd⟩
  · rw [index, earlier, hd, List.count_eq_zero.2 hb, List.length_nil]
  · rw [index, earlier, hd, hb, List.count_append, List.count_eq_zero.2 ha, List.count_cons_self,
      length_splitOn, List.count_reverse, Nat.zero_add]

theorem getLast?_earlier : p.earlier.getLast? = p.above? := by
  rw [earlier, above?, secondLine?]
  cases p.before.dropWhile (· ≠ '\n') with
  | nil => rfl
  | cons _ r =>
    rw [getLast?_splitOn, List.reverse_reverse]
    rfl

theorem head?_later : p.later.head? = p.below? := by
  rw [later, below?, secondLine?]
  cases p.after.dropWhile (· ≠ '\n') with
  | nil => rfl
  | cons _ r => rw [head?_splitOn]

theorem index_eq_zero_iff : p.index = 0 ↔ '\n' ∉ p.before := List.count_eq_zero

theorem index_le_byteLength : p.index ≤ byteLength p.before :=
  Nat.le_trans List.count_le_length (length_le_byteLength p.before)

theorem column_le_byteLength : p.column ≤ byteLength p.before := by
  rw [column, lead, List.length_reverse]
  exact Nat.le_trans (List.takeWhile_prefix _).length_le (length_le_byteLength p.before)

theorem break_not_mem_lead : '\n' ∉ p.lead := by
  obtain ⟨-, -, h, -⟩ := p.exists_head
  exact h

theorem break_not_mem_current : '\n' ∉ p.current := by
  rw [current, List.mem_append, not_or]
  exact ⟨p.break_not_mem_lead, break_not_mem_takeWhile p.after⟩

theorem current_subset : p.current ⊆ p.source := by
  refine List.append_subset.2 ⟨?_, ?_⟩
  · intro c hc
    have hb : c ∈ p.before := (List.takeWhile_prefix _).subset (List.mem_reverse.1 hc)
    exact List.mem_append_left _ (List.mem_reverse.2 hb)
  · intro c hc
    exact List.mem_append_right _ ((List.takeWhile_prefix _).subset hc)

theorem above_subset {text : List Char} (h : p.above? = some text) : text ⊆ p.source := by
  rw [above?, Option.map_eq_some_iff] at h
  obtain ⟨line, hline, rfl⟩ := h
  intro c hc
  have hb : c ∈ p.before := secondLine?_subset hline (List.mem_reverse.1 hc)
  exact List.mem_append_left _ (List.mem_reverse.2 hb)

theorem below_subset {text : List Char} (h : p.below? = some text) : text ⊆ p.source :=
  fun _ hc => List.mem_append_right _ (secondLine?_subset h hc)

theorem getElem?_current : (p.source.splitOn '\n')[p.index]? = some p.current := by
  rw [splitOn_source, ← length_earlier, List.getElem?_append_right (Nat.le_refl _), Nat.sub_self]
  rfl

theorem getElem?_below : (p.source.splitOn '\n')[p.index + 1]? = p.below? := by
  rw [splitOn_source, ← length_earlier, List.getElem?_append_right (by omega),
    Nat.add_sub_cancel_left, List.getElem?_cons_succ, ← List.head?_eq_getElem?, head?_later]

theorem above?_eq_none_iff : p.above? = none ↔ p.index = 0 := by
  rw [← getLast?_earlier, List.getLast?_eq_none_iff, ← length_earlier, List.length_eq_zero_iff]

variable {p}

theorem break_not_mem_above {text : List Char} (h : p.above? = some text) : '\n' ∉ text := by
  rw [above?, Option.map_eq_some_iff] at h
  obtain ⟨line, hline, rfl⟩ := h
  rw [List.mem_reverse]
  exact break_not_mem_secondLine? hline

theorem break_not_mem_below {text : List Char} (h : p.below? = some text) : '\n' ∉ text :=
  break_not_mem_secondLine? h

theorem below?_eq_none_iff : p.below? = none ↔ '\n' ∉ p.after := secondLine?_eq_none_iff

theorem getElem?_above (h : 0 < p.index) : (p.source.splitOn '\n')[p.index - 1]? = p.above? := by
  rw [splitOn_source, List.getElem?_append_left (by rw [length_earlier]; omega),
    ← getLast?_earlier, List.getLast?_eq_getElem?, length_earlier]

end Place
end Lexeme
