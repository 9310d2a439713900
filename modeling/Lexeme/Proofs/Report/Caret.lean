import Lexeme.Proofs.Report.Rows

/-!
# The caret under a place

Main statements: the context shows the line around the place between its two neighbours, and the
caret stands where the line goes on from the place. The caret is placed by all of the line, but the
main row shows it without the carriage returns at its end; so the caret stands as far behind the row
as carriage returns stand right before the place, if nothing else follows on the line.
-/

namespace Lexeme
namespace Report

/-- The context without colour, by the numbers that the lines have in the source. -/
theorem context_false (line : Nat) (p : Place) :
    context false line p =
      (if p.index = 0 then [] else
        (p.source.splitOn '\n')[p.index - 1]?.elim []
          (numbered (labelWidth (label line p)) (label line p - 1))) ++
        numbered (labelWidth (label line p)) (label line p) p.current ++
        (List.replicate (labelWidth (label line p) + 3 + p.column) ' ' ++ ['^', '\n']) ++
        (if label line p < lastLabel then
          (p.source.splitOn '\n')[p.index + 1]?.elim []
            (numbered (labelWidth (label line p)) (label line p + 1))
        else []) := by
  have habove (f : List Char → List Char) : p.above?.elim [] f =
      if p.index = 0 then [] else (p.source.splitOn '\n')[p.index - 1]?.elim [] f := by
    split
    · rename_i h
      rw [p.above?_eq_none_iff.2 h, Option.elim_none]
    · rename_i h
      rw [p.getElem?_above (Nat.pos_of_ne_zero h)]
  have hbelow (label : Nat) (f : Nat → List Char → List Char) :
      ((nextLabel? label).elim [] fun next => p.below?.elim [] (f next)) =
        if label < lastLabel then (p.source.splitOn '\n')[p.index + 1]?.elim [] (f (label + 1))
        else [] := by
    rw [p.getElem?_below, nextLabel?]
    split
    · rw [Option.elim_some]
    · rw [Option.elim_none]
  rw [context_false_eq_append, habove, hbelow]

theorem exists_head?_of_prefix {lead trail shown : List Char} (h : shown <+: lead ++ trail)
    (hlen : lead.length < shown.length) :
    ∃ c, trail.head? = some c ∧ shown[lead.length]? = some c := by
  obtain ⟨rest, hrest⟩ := h
  have hcaret : shown[lead.length]? = trail.head? :=
    calc shown[lead.length]? = (lead ++ trail)[lead.length]? := by
          rw [← hrest, List.getElem?_append_left hlen]
      _ = trail.head? := by
          rw [List.getElem?_append_right (Nat.le_refl _), Nat.sub_self, List.head?_eq_getElem?]
  have hc : shown[lead.length]? = some shown[lead.length] := List.getElem?_eq_getElem hlen
  exact ⟨shown[lead.length], hcaret ▸ hc, hc⟩

/-- The reported place is on a line of the source, and the context shows this line between its two
neighbours, without the carriage returns at their ends. If the line up to the place is shown, it
fills the main row up to the column of the caret; and if any more of the line is shown, the caret
stands under the character behind the place. -/
theorem caret_under_place (kind message before after : String) (position line : UInt64)
    (h : before.utf8ByteSize = position.toNat) :
    let r : Report := ⟨kind, message, position, line, some (before ++ after)⟩
    let lines := (before ++ after).toList.splitOn '\n'
    let index := before.toList.count '\n'
    let lead := before.toList.rtakeWhile (· ≠ '\n')
    let trail := after.toList.takeWhile (· ≠ '\n')
    let shown := (lead ++ trail).rdropWhile (· = '\r')
    let label := max line.toNat (index + 1)
    let width := labelWidth label
    let main := gutter width label ++ shown
    let column := (gutter width label).length + lead.length
    let above := if index = 0 then [] else lines[index - 1]?.elim [] (numbered width (label - 1))
    let below :=
      if label < lastLabel then lines[index + 1]?.elim [] (numbered width (label + 1)) else []
    (r.text false).toList =
        r.header false ++ r.location false ++
          (above ++ (main ++ ['\n']) ++ (List.replicate column ' ' ++ ['^', '\n']) ++ below) ∧
      lines[index]? = some (lead ++ trail) ∧
      (lead <+: shown → main.take column = gutter width label ++ lead) ∧
      (lead.length < shown.length → ∃ c, after.toList.head? = some c ∧ main[column]? = some c) := by
  intro r lines index lead trail shown label width main column above below
  let p : Place := ⟨before.toList.reverse, after.toList⟩
  have hsource : p.source = (before ++ after).toList := by
    rw [Place.source_reverse, ← String.toList_append]
  have hindex : p.index = index := Place.index_reverse ..
  have hcolumn : width + 3 + p.column = column := by
    have hgutter : (gutter width label).length = width + 3 :=
      length_gutter (length_decimal_le_labelWidth (.inl (Nat.le_refl _)))
    rw [← hgutter]
    rfl
  have hlabel : Report.label line.toNat p = label := by rw [Report.label, hindex]
  have hprefix : shown <+: lead ++ trail := List.rdropWhile_prefix _ _
  refine ⟨?_, ?_, ?_, ?_⟩
  · have hcontext := context_false line.toNat p
    have hmain : numbered width label p.current = main ++ ['\n'] := (List.append_assoc ..).symm
    simp only [hsource, hindex, hlabel] at hcontext
    rw [toList_text, render_of_append rfl h, hcontext, hcolumn, hmain]
  · have hline := p.getElem?_current
    rwa [hsource, hindex] at hline
  · rintro ⟨rest, hrest⟩
    simp only [main, column, ← hrest, List.take_length_add_append, List.take_left]
  · intro hlen
    obtain ⟨c, hc, hshown⟩ := exists_head?_of_prefix hprefix hlen
    refine ⟨c, ?_, ?_⟩
    · rw [List.head?_takeWhile, Option.filter_eq_some_iff] at hc
      exact hc.1
    · rw [List.getElem?_append_right (Nat.le_add_right _ _), Nat.add_sub_cancel_left]
      exact hshown

/-- A place behind a letter of two bytes and in front of a line end of two characters. -/
theorem caret_under_place_second_line :
    let r : Report := ⟨"Error", "bad", 4, 1, some ("é\nx" ++ "y\r\nz")⟩
    "é\nx".utf8ByteSize = (4 : UInt64).toNat ∧
      (r.text false).toList =
        r.header false ++ r.location false ++ "  1 é\n  2 xy\n     ^\n  3 z\n".toList := by
  intro r
  have h : "é\nx".utf8ByteSize = (4 : UInt64).toNat := by decide
  refine ⟨h, ?_⟩
  rw [(caret_under_place "Error" "bad" "é\nx" "y\r\nz" 4 1 h).1]
  decide

theorem length_dropReturns_add (s : List Char) :
    (dropReturns s).length + (s.rtakeWhile (· = '\r')).length = s.length := by
  have h : dropReturns s ++ s.rtakeWhile (· = '\r') = s := List.rdropWhile_append_rtakeWhile
  rw [← List.length_append, h]

theorem length_eq_dropReturns_add {s t : List Char} (h : ∀ c ∈ t, c = '\r') :
    s.length = (dropReturns (s ++ t)).length + (s.rtakeWhile (· = '\r')).length := by
  rw [dropReturns_append, if_pos (dropReturns_eq_nil_iff.2 h), length_dropReturns_add]

theorem length_le_dropReturns {s t : List Char} (h : ∃ c ∈ t, c ≠ '\r') :
    s.length ≤ (dropReturns (s ++ t)).length := by
  have hne : dropReturns t ≠ [] := by
    rw [ne_eq, dropReturns_eq_nil_iff]
    push Not
    exact h
  rw [dropReturns_append, if_neg hne, List.length_append]
  exact Nat.le_add_right _ _

theorem rtakeWhile_return_eq_nil_iff {s : List Char} :
    s.rtakeWhile (· = '\r') = [] ↔ s.getLast? ≠ some '\r' := by
  rw [List.rtakeWhile_eq_nil_iff]
  cases s using List.reverseRecOn <;> simp

theorem exists_context_false (line : Nat) (p : Place) :
    ∃ above below, (above = [] ∨ above.getLast? = some '\n') ∧
      context false line p =
        above ++ numbered (labelWidth (label line p)) (label line p) p.current ++
          (List.replicate (labelWidth (label line p) + 3 + p.column) ' ' ++ ['^', '\n']) ++
          below := by
  refine ⟨p.above?.elim [] (numbered (labelWidth (label line p)) (label line p - 1)),
    (nextLabel? (label line p)).elim [] fun next =>
      p.below?.elim [] (numbered (labelWidth (label line p)) next), ?_,
    context_false_eq_append line p⟩
  cases p.above? with
  | none => exact .inl rfl
  | some text =>
    right
    rw [Option.elim_some, numbered, ← List.append_assoc]
    exact List.getLast?_concat

/-- The main row shows the line around the place, and the caret stands below it in the column of
the place. So it stands behind the row by the carriage returns right before the place, if the line
goes on with nothing else, and otherwise under the row or directly behind it. -/
theorem caret_overhang (kind message before after : String) (position line : UInt64)
    (h : before.utf8ByteSize = position.toNat) :
    let r : Report := ⟨kind, message, position, line, some (before ++ after)⟩
    let lead := before.toList.rtakeWhile (· ≠ '\n')
    let trail := after.toList.takeWhile (· ≠ '\n')
    let shown := (lead ++ trail).rdropWhile (· = '\r')
    let label := max line.toNat (before.toList.count '\n' + 1)
    let front := gutter (labelWidth label) label
    (∃ above below, (above = [] ∨ above.getLast? = some '\n') ∧
      (r.text false).toList = r.header false ++ r.location false ++
        (above ++ (front ++ (shown ++ ['\n'])) ++
          (List.replicate (front.length + lead.length) ' ' ++ ['^', '\n']) ++ below)) ∧
    ((∀ c ∈ trail, c = '\r') →
      lead.length = shown.length + (lead.rtakeWhile (· = '\r')).length) ∧
    (lead.length ≤ shown.length ↔ (∃ c ∈ trail, c ≠ '\r') ∨ lead.getLast? ≠ some '\r') := by
  intro r lead trail shown label front
  refine ⟨?_, length_eq_dropReturns_add, ?_⟩
  · let p : Place := ⟨before.toList.reverse, after.toList⟩
    have hlabel : Report.label line.toNat p = label := by
      rw [Report.label, Place.index_reverse]
    have hfront : front.length = labelWidth label + 3 :=
      length_gutter (length_decimal_le_labelWidth (.inl (Nat.le_refl _)))
    obtain ⟨above, below, habove, hcontext⟩ := exists_context_false line.toNat p
    refine ⟨above, below, habove, ?_⟩
    rw [toList_text, render_of_append rfl h, hcontext, hlabel, hfront]
    rfl
  · by_cases hrest : ∃ c ∈ trail, c ≠ '\r'
    · exact iff_of_true (length_le_dropReturns hrest) (.inl hrest)
    · have hall : ∀ c ∈ trail, c = '\r' := by
        push Not at hrest
        exact hrest
      have hlen : lead.length = shown.length + (lead.rtakeWhile (· = '\r')).length :=
        length_eq_dropReturns_add hall
      rw [← rtakeWhile_return_eq_nil_iff, ← List.length_eq_zero_iff]
      simp only [hrest, false_or]
      omega

/-- Between two carriage returns the caret stands one column behind the row. -/
theorem caret_overhang_line_end :
    let lead := "é\r".toList.rtakeWhile (· ≠ '\n')
    let trail := "\r\nx".toList.takeWhile (· ≠ '\n')
    let shown := (lead ++ trail).rdropWhile (· = '\r')
    "é\r".utf8ByteSize = (3 : UInt64).toNat ∧ (∀ c ∈ trail, c = '\r') ∧
      lead.length = shown.length + 1 ∧ ¬lead.length ≤ shown.length := by
  intro lead trail shown
  have h : "é\r".utf8ByteSize = (3 : UInt64).toNat := by decide
  have htrail : trail = ['\r'] := by decide
  have hall : ∀ c ∈ trail, c = '\r' := by
    rw [htrail]
    exact fun c => List.mem_singleton.1
  obtain ⟨-, hlen, hiff⟩ := caret_overhang "Error" "bad" "é\r" "\r\nx" 3 1 h
  refine ⟨h, hall, hlen hall, ?_⟩
  rw [hiff, not_or]
  refine ⟨?_, by decide⟩
  rintro ⟨c, hc, hne⟩
  exact hne (hall c hc)

/-- Between the two characters of a line end the caret stands one column behind the place where the
row ends. -/
theorem exists_caret_behind_row :
    ∃ main caret : String,
      (⟨"Error", "bad", 3, 1, some "ab\r\ncd"⟩ : Report).text false =
        "Error: bad\n  --> line 1, pos 3\n" ++ main ++ "\n" ++ caret ++ "^\n  2 cd\n" ∧
      caret.toList = List.replicate caret.length ' ' ∧ ¬caret.length ≤ main.length :=
  ⟨"  1 ab", "       ", by decide +kernel, by decide, by decide⟩

end Report
end Lexeme
