import Lexeme.Proofs.Report.Rows
import Lexeme.Proofs.Text.Painting

/-!
# The lines of a report

Main statement: how many line ends a report has, told by its name, its message, and the line ends of
the source before the place and behind it.
-/

namespace Lexeme
namespace Report

theorem count_leftpad_decimal (width label : Nat) :
    ((decimal label).leftpad width ' ').count '\n' = 0 := by
  rw [List.count_eq_zero, List.leftpad, List.mem_append, not_or]
  exact ⟨fun h => absurd (List.eq_of_mem_replicate h) (by decide), not_mem_decimal rfl label⟩

theorem count_row {text : List Char} (h : '\n' ∉ text) (colour : Bool) (style : Ansi.Style)
    (width label : Nat) : (row colour style width label text).count '\n' = 1 := by
  have htext : '\n' ∉ dropReturns text := fun hm => h (mem_of_mem_dropReturns hm)
  simp only [row, List.count_append, List.count_cons, Ansi.count_paint, count_leftpad_decimal,
    List.count_eq_zero.2 htext]
  decide

theorem count_caretRow (colour : Bool) (width column : Nat) :
    (caretRow colour width column).count '\n' = 1 := by
  simp [caretRow, Ansi.count_paint, List.count_replicate]

theorem count_header (r : Report) (colour : Bool) :
    (r.header colour).count '\n' = r.kind.toList.count '\n' + r.message.toList.count '\n' + 1 := by
  simp [header, Ansi.count_paint, Nat.add_assoc]

theorem count_location (r : Report) (colour : Bool) : (r.location colour).count '\n' = 1 := by
  have hline : " line ".toList.count '\n' = 0 := by decide
  have hpos : ", pos ".toList.count '\n' = 0 := by decide
  have hdecimal (n : Nat) : '\n' ∉ decimal n := not_mem_decimal rfl n
  simp only [location, List.count_append, List.count_cons, Ansi.count_paint, hline, hpos,
    List.count_eq_zero.2 (hdecimal _)]
  decide

theorem count_elim_row {text? : Option (List Char)}
    (h : ∀ text, text? = some text → '\n' ∉ text) (colour : Bool) (style : Ansi.Style)
    (width label : Nat) :
    (text?.elim [] (row colour style width label)).count '\n' =
      if text? = none then 0 else 1 := by
  cases text? with
  | none => rfl
  | some text => exact count_row (h text rfl) colour style width label

/-- The main row and the caret are always there; a row above takes a line end before the place, and
a row below one behind it and a number that is not the last. -/
theorem count_context (colour : Bool) (line : Nat) (p : Place) :
    (context colour line p).count '\n' = 2 + (if '\n' ∈ p.before then 1 else 0) +
      if '\n' ∈ p.after ∧ label line p < lastLabel then 1 else 0 := by
  have habove : p.above? = none ↔ '\n' ∉ p.before := by
    rw [p.above?_eq_none_iff, p.index_eq_zero_iff]
  rw [context_eq_append, List.count_append, List.count_append, List.count_append,
    count_elim_row fun _ => Place.break_not_mem_above, count_row p.break_not_mem_current,
    count_caretRow]
  by_cases hlabel : label line p < lastLabel
  · have hnext : nextLabel? (label line p) = some (label line p + 1) := if_pos hlabel
    rw [hnext, Option.elim_some, count_elim_row fun _ => Place.break_not_mem_below]
    simp only [habove, Place.below?_eq_none_iff, ite_not, hlabel, and_true]
    omega
  · have hnext : nextLabel? (label line p) = none := if_neg hlabel
    rw [hnext, Option.elim_none, List.count_nil]
    simp only [habove, ite_not, hlabel, and_false, if_false]
    omega

theorem getLast?_row (colour : Bool) (style : Ansi.Style) (width label : Nat) (text : List Char) :
    (row colour style width label text).getLast? = some '\n' := by
  simp [row, List.getLast?_append, List.getLast?_cons]

theorem getLast?_caretRow (colour : Bool) (width column : Nat) :
    (caretRow colour width column).getLast? = some '\n' := by
  simp [caretRow, List.getLast?_append]

theorem getLast?_location (r : Report) (colour : Bool) :
    (r.location colour).getLast? = some '\n' := by
  simp [location, List.getLast?_append, List.getLast?_cons]

theorem getLast?_context (colour : Bool) (line : Nat) (p : Place) :
    (context colour line p).getLast? = some '\n' := by
  rw [context_eq_append, List.getLast?_append, List.getLast?_append, getLast?_caretRow]
  cases nextLabel? (label line p) with
  | none => rfl
  | some next =>
    cases p.below? with
    | none => rfl
    | some text =>
      rw [Option.elim_some, Option.elim_some, getLast?_row]
      rfl

theorem getLast?_render (r : Report) (colour : Bool) :
    (r.render colour).getLast? = some '\n' := by
  rw [render]
  cases r.place? with
  | none =>
    rw [Option.elim_none, List.append_nil, List.getLast?_append, getLast?_location]
    rfl
  | some p =>
    rw [Option.elim_some, List.getLast?_append, getLast?_context]
    rfl

/-- A report ends at a line end. If its place is in the source it has two line ends of its own, one
each for the main row and the caret, one for a row above if a line ends before the place, one for
a row below if a line ends behind it and the label is not the last number, and those in its name
and its message. If there is no source, or the place is beyond its end or inside a character, the
report is the one without source and has none of the rows. -/
theorem breaks_of_text (kind message : String) (position line : UInt64) (source? : Option String)
    (colour : Bool) :
    let r : Report := ⟨kind, message, position, line, source?⟩
    let bare : Report := ⟨kind, message, position, line, none⟩
    let breaks := (r.text colour).toList.count '\n'
    let outside := 2 + kind.toList.count '\n' + message.toList.count '\n'
    (r.text colour).toList.getLast? = some '\n' ∧
    (∀ before after, source? = some (before ++ after) → before.utf8ByteSize = position.toNat →
      breaks = outside + (2 + (if '\n' ∈ before.toList then 1 else 0) +
        if '\n' ∈ after.toList ∧
          max line.toNat (before.toList.count '\n' + 1) < 18446744073709551615 then 1 else 0)) ∧
    ((∀ source, source? = some source → source.utf8ByteSize < position.toNat ∨
        ¬String.Pos.Raw.IsValid source ⟨position.toNat⟩) →
      breaks = outside ∧ r.text colour = bare.text colour) := by
  intro r bare breaks outside
  have hbreaks : breaks = (r.render colour).count '\n' :=
    congrArg (List.count '\n') (toList_text r colour)
  have houtside : (r.header colour ++ r.location colour).count '\n' = outside := by
    rw [List.count_append, count_header, count_location]
    change kind.toList.count '\n' + message.toList.count '\n' + 1 + 1 = 2 + _ + _
    omega
  refine ⟨?_, ?_, ?_⟩
  · rw [toList_text, getLast?_render]
  · intro before after hs h
    rw [hbreaks, render_of_append hs h, List.count_append, houtside, count_context]
    simp only [List.mem_reverse, label, Place.index_reverse]
    rfl
  · intro h
    have hplace : r.place? = none := by
      rw [place?, Option.bind_eq_none_iff]
      intro source hs
      rw [Place.at?_eq_none_iff]
      intro hvalid
      rcases h source hs with hlong | hinvalid
      · exact absurd hvalid.le_rawEndPos (Nat.not_le.2 hlong)
      · exact hinvalid hvalid
    have hrender : r.render colour = bare.render colour := by
      rw [render, hplace]
      rfl
    refine ⟨?_, congrArg String.ofList hrender⟩
    rw [hbreaks, render, hplace, Option.elim_none, List.append_nil, houtside]

/-- A place with a row above it and one below, and an offset inside the first letter. -/
theorem breaks_of_text_inside :
    let source := "é\n" ++ "a\nb"
    let bare : Report := ⟨"A\nB", "x\n", 1, 0, none⟩
    "é\n".utf8ByteSize = (3 : UInt64).toNat ∧
      ((⟨"A\nB", "x\n", 3, 0, some source⟩ : Report).text true).toList.count '\n' = 8 ∧
      ¬String.Pos.Raw.IsValid source ⟨(1 : UInt64).toNat⟩ ∧
      (⟨"A\nB", "x\n", 1, 0, some source⟩ : Report).text true = bare.text true := by
  intro source bare
  have hcut : "é\n".utf8ByteSize = (3 : UInt64).toNat := by decide
  have hinside : ¬String.Pos.Raw.IsValid source ⟨(1 : UInt64).toNat⟩ := by decide
  refine ⟨hcut, ?_, hinside, ?_⟩
  · rw [(breaks_of_text "A\nB" "x\n" 3 0 (some source) true).2.1 "é\n" "a\nb" rfl hcut]
    decide
  · refine ((breaks_of_text "A\nB" "x\n" 1 0 (some source) true).2.2 ?_).2
    rintro _ ⟨⟩
    exact .inr hinside

end Report
end Lexeme
