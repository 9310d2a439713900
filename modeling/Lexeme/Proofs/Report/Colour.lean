import Lexeme.Proofs.Report.Rows
import Lexeme.Proofs.Text.Painting

/-!
# Reports in colour

Every painted piece of a report stands in front of a seam, whatever the names, the message and the
source have in them. Main statement: colour makes no difference to what is left of a report after
stripping, and that is the report without colour if nothing in it has an escape.
-/

namespace Lexeme
namespace Report

open Ansi

variable (colour : Bool) (style : Style) (width label : Nat)

theorem strip_header (r : Report) : strip (r.header colour) = strip (r.header false) := by
  have hseam : Seam (':' :: ' ' :: (r.message.toList ++ ['\n'])) := seam_cons (by decide) _
  rw [header, header, strip_paint colour _ _ hseam, paint_false]

theorem strip_location (r : Report) : strip (r.location colour) = strip (r.location false) := by
  have hseam (s : List Char) : Seam (" line ".toList ++ s) := seam_cons (by decide) _
  simp only [location, List.append_assoc, strip_space, strip_paint _ _ _ (hseam _)]

theorem strip_row (text : List Char) :
    strip (row colour style width label text) = strip (row false style width label text) := by
  have hseam : Seam (' ' :: (dropReturns text ++ ['\n'])) := seam_cons (by decide) _
  simp only [row, strip_space, strip_paint _ _ _ hseam]

theorem strip_caretRow (column : Nat) :
    strip (caretRow colour width column) = strip (caretRow false width column) := by
  have hend : Seam ['\n'] := seam_cons (by decide) _
  have hcaret (colour : Bool) : Seam (paint colour .boldRed ['^'] ++ ['\n']) := by
    cases colour <;> exact seam_cons (by decide) _
  rw [caretRow, caretRow, strip_append (hcaret colour), strip_append (hcaret false),
    strip_paint colour _ _ hend, paint_false]

theorem seam_row (text : List Char) : Seam (row colour style width label text) :=
  seam_cons (by decide) _

theorem seam_caretRow (column : Nat) : Seam (caretRow colour width column) := by
  have hroom : width + 3 + column = width + 2 + column + 1 := by omega
  rw [caretRow, hroom, List.replicate_succ]
  exact seam_cons (by decide) _

theorem strip_context (line : Nat) (p : Place) :
    strip (context colour line p) = strip (context false line p) := by
  have hseam (colour : Bool) (width next : Nat) :
      Seam (p.below?.elim [] (row colour .blue width next)) :=
    seam_elim (seam_row colour .blue width next) p.below?
  have hbelow (width next : Nat) : strip (p.below?.elim [] (row colour .blue width next)) =
      strip (p.below?.elim [] (row false .blue width next)) :=
    strip_elim_congr (strip_row colour .blue width next) p.below?
  have habove (width number : Nat) : strip (p.above?.elim [] (row colour .blue width number)) =
      strip (p.above?.elim [] (row false .blue width number)) :=
    strip_elim_congr (strip_row colour .blue width number) p.above?
  simp only [context_eq_append, strip_append (seam_elim (hseam _ _) _),
    strip_append (seam_caretRow _ _ _), strip_append (seam_row _ _ _ _ _), habove,
    strip_row colour, strip_caretRow colour, strip_elim_congr (hbelow _)]

theorem seam_context (line : Nat) (p : Place) : Seam (context colour line p) := by
  rw [context_eq_append]
  cases p.above? <;> exact seam_cons (by decide) _

theorem seam_location (r : Report) : Seam (r.location colour) := seam_cons (by decide) _

theorem strip_render (r : Report) : strip (r.render colour) = strip (r.render false) := by
  have hseam (colour : Bool) : Seam (r.place?.elim [] (context colour r.line.toNat)) :=
    seam_elim (seam_context colour r.line.toNat) r.place?
  have hcontext : strip (r.place?.elim [] (context colour r.line.toNat)) =
      strip (r.place?.elim [] (context false r.line.toNat)) :=
    strip_elim_congr (strip_context colour r.line.toNat) r.place?
  rw [render, render, strip_append (hseam colour), strip_append (hseam false),
    strip_append (seam_location colour r), strip_append (seam_location false r), strip_header,
    strip_location, hcontext]

theorem escape_not_mem_replicate (n : Nat) : escape ∉ List.replicate n ' ' := fun h =>
  absurd (List.eq_of_mem_replicate h) (by decide)

theorem escape_not_mem_decimal (n : Nat) : escape ∉ decimal n := not_mem_decimal rfl n

theorem escape_not_mem_numbered {text : List Char} (h : escape ∉ text) :
    escape ∉ numbered width label text := by
  have htext : escape ∉ dropReturns text := fun hm => h (mem_of_mem_dropReturns hm)
  have hspace : escape ≠ ' ' := by decide
  have hlabel : escape ∉ (decimal label).leftpad width ' ' ++ [' '] :=
    List.not_mem_append
      (List.not_mem_append (escape_not_mem_replicate _) (escape_not_mem_decimal label)) (by decide)
  exact List.not_mem_append
    (List.not_mem_cons_of_ne_of_not_mem hspace (List.not_mem_cons_of_ne_of_not_mem hspace hlabel))
    (List.not_mem_append htext (by decide))

theorem escape_not_mem_elim {α : Type} {value? : Option α} {f : α → List Char}
    (h : ∀ a, value? = some a → escape ∉ f a) : escape ∉ value?.elim [] f := by
  cases value? with
  | none => exact List.not_mem_nil
  | some a => exact h a rfl

theorem escape_not_mem_context (line : Nat) {p : Place} (h : escape ∉ p.source) :
    escape ∉ context false line p := by
  have habove (text : List Char) (ht : p.above? = some text) : escape ∉ text :=
    fun hm => h (p.above_subset ht hm)
  have hbelow (text : List Char) (ht : p.below? = some text) : escape ∉ text :=
    fun hm => h (p.below_subset ht hm)
  have hcurrent : escape ∉ p.current := fun hm => h (p.current_subset hm)
  rw [context_false_eq_append]
  refine List.not_mem_append (List.not_mem_append (List.not_mem_append ?_ ?_) ?_) ?_
  · exact escape_not_mem_elim fun text ht => escape_not_mem_numbered _ _ (habove text ht)
  · exact escape_not_mem_numbered _ _ hcurrent
  · exact List.not_mem_append (escape_not_mem_replicate _) (by decide)
  · exact escape_not_mem_elim fun next _ =>
      escape_not_mem_elim fun text ht => escape_not_mem_numbered _ next (hbelow text ht)

theorem escape_not_mem_header {r : Report} (hkind : escape ∉ r.kind.toList)
    (hmessage : escape ∉ r.message.toList) : escape ∉ r.header false := by
  have hcolon : escape ≠ ':' := by decide
  have hspace : escape ≠ ' ' := by decide
  exact List.not_mem_append hkind (List.not_mem_cons_of_ne_of_not_mem hcolon
    (List.not_mem_cons_of_ne_of_not_mem hspace (List.not_mem_append hmessage (by decide))))

theorem escape_not_mem_location (r : Report) : escape ∉ r.location false := by
  have hline : escape ∉ " line ".toList := by decide
  have hpos : escape ∉ ", pos ".toList := by decide
  simp only [location, paint_false, List.mem_cons, List.mem_append, hline, hpos,
    escape_not_mem_decimal]
  decide

/-- Whatever escapes there are in the name, the message and the source of a report: once the
switching sequences are taken out, the report in colour is the same as the one without. If there
are no escapes at all, that is the report without colour itself. -/
theorem strip_coloured (r : Report) :
    strip (r.text true).toList = strip (r.text false).toList ∧
    (escape ∉ r.kind.toList → escape ∉ r.message.toList →
      (∀ source, r.source? = some source → escape ∉ source.toList) →
      strip (r.text true).toList = (r.text false).toList) := by
  have hstrip : strip (r.text true).toList = strip (r.text false).toList := by
    rw [toList_text, toList_text, strip_render]
  refine ⟨hstrip, fun hkind hmessage hsource => ?_⟩
  rw [hstrip, strip_of_not_mem]
  rw [toList_text, render]
  refine List.not_mem_append
    (List.not_mem_append (escape_not_mem_header hkind hmessage) (escape_not_mem_location r)) ?_
  refine escape_not_mem_elim fun p hp => escape_not_mem_context r.line.toNat ?_
  obtain ⟨source, hs, hat⟩ := Option.bind_eq_some_iff.1 hp
  rw [(Place.at?_eq_some_iff.1 hat).1]
  exact hsource source hs

/-- A name that has a reset in it and ends in half a sequence, and one without escapes. -/
theorem strip_coloured_half :
    let r : Report := ⟨"a\x1b[0mb\x1b[1", "m\x1b[4mc", 0, 1, some "\x1b[0md\x1b["⟩
    let plain : Report := ⟨"Error", "bad", 0, 1, some "d"⟩
    strip (r.text true).toList =
        "ab\x1b[1: mc\n  --> line 1, pos 0\n  1 d\x1b[\n    ^\n".toList ∧
      escape ∉ plain.kind.toList ∧ escape ∉ plain.message.toList ∧
      (∀ source, plain.source? = some source → escape ∉ source.toList) ∧
      strip (plain.text true).toList = (plain.text false).toList := by
  intro r plain
  have hkind : escape ∉ plain.kind.toList := by decide
  have hmessage : escape ∉ plain.message.toList := by decide
  have hsource : ∀ source, plain.source? = some source → escape ∉ source.toList := by
    rintro _ ⟨⟩
    decide
  refine ⟨?_, hkind, hmessage, hsource, (strip_coloured plain).2 hkind hmessage hsource⟩
  rw [(strip_coloured r).1]
  decide +kernel

end Report
end Lexeme
