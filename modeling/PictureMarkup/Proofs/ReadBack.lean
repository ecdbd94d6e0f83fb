import PictureMarkup.Proofs.Decoding
import PictureMarkup.Proofs.WellWritten

/-!
# Drawings are read back from their markup

The markup of a drawing is one element in which tags nest, whatever the drawing, the layout
and the kind of document are, and every number in it is a plain decimal. The kind, the key
and the drawing as it is printed are read back from it (`Group.markup_read_back`). So
nothing is lost between a drawing and its markup but what printing a number loses.
-/

namespace PictureMarkup

open Markup

/-- A document decodes to its kind, its key and its drawing. -/
theorem Group.means_document (root : Group Float) (kind : DocumentKind) (key : Option String) :
    (root.document kind key).Means
      (match kind with
        | .image => .image key root.printed
        | .drawingGroup => .group key root.printed) := by
  cases kind with
  | image => exact means_image key (means_group none root)
  | drawingGroup => exact means_group key root

theorem Group.readDocument?_markup (root : Group Float) (kind : DocumentKind) {key : Option String}
    (plain : ∀ k ∈ key, isValue k) (layout : Layout) :
    readDocument? (root.markup kind key layout) = some (kind, key, root.printed) := by
  have readable := (root.written_document kind plain).readable
  rw [readDocument?, markup, Node.read_render readable, Option.bind_some,
    root.means_document kind key]
  cases kind <;> rfl

/-- A key that needs no escapes and stays on one line. -/
def PlainKey (k : String) : Prop := ∀ c ∈ k.toList, c ≠ '&' ∧ c ≠ '<' ∧ c ≠ '"' ∧ c ≠ '\n'

theorem PlainKey.isValue {k : String} (plain : PlainKey k) : isValue k := by
  refine isValue_of_forall fun c member => ?_
  obtain ⟨ampersand, bracket, quote, line⟩ := plain c member
  refine ⟨?_, quote, line⟩
  rw [isLiteral, bne_iff_ne.mpr bracket, bne_iff_ne.mpr ampersand]
  rfl

/-- **The markup loses nothing.** The markup of any drawing, of either kind, in any layout
and with no key or a plain one, has tags and texts that make up one element, where the tag
opened last is closed first. All numbers in it are plain decimals. The kind, the key and
the drawing as it is printed are read back from it, so that a drawing with the same markup
is printed the same. -/
theorem Group.markup_read_back (root : Group Float) (kind : DocumentKind) (key : Option String)
    (layout : Layout) (plain : ∀ k ∈ key, PlainKey k) :
    (∃ tokens, scan (root.markup kind key layout) = some tokens ∧ IsElement tokens ∧
        ∀ t ∈ tokens, t.PlainNumbers) ∧
      readDocument? (root.markup kind key layout) = some (kind, key, root.printed) ∧
      ∀ other : Group Float, other.markup kind key layout = root.markup kind key layout →
        other.printed = root.printed := by
  have value : ∀ k ∈ key, isValue k := fun k member => (plain k member).isValue
  have written := root.written_document kind value
  have read := root.readDocument?_markup kind value layout
  refine ⟨⟨_, Node.scan_render written.readable layout, Node.isElement written.readable,
    written.plainNumbers⟩, read, fun other same => ?_⟩
  have twice := other.readDocument?_markup kind value layout
  rw [same, read, Option.some_inj, Prod.mk.injEq, Prod.mk.injEq] at twice
  exact twice.2.2.symm

/-- A red bar under a mask whose numbers are not all finite. -/
def Group.maskedBar : Group Float where
  opacity := some (1 / 2)
  mask := some (.linear ⟨⟨0, 0⟩, ⟨0 / 0, -0⟩, .reflect, none, [⟨1 / 0, ⟨128, 0, 0, 0⟩⟩]⟩)
  children := [.leaf { path := .ofRect ⟨0, 0, 8, 1⟩, brush := some (.solid ⟨255, 255, 0, 0⟩) }]

/-- The masked bar is read back from a resource with the key `bar`. -/
theorem Group.markup_read_back_bar :
    (∀ k ∈ some "bar", PlainKey k) ∧
      (∃ tokens, scan (maskedBar.markup .drawingGroup (some "bar") ⟨some 2, .crlf⟩) = some tokens ∧
          IsElement tokens ∧ ∀ t ∈ tokens, t.PlainNumbers) ∧
        readDocument? (maskedBar.markup .drawingGroup (some "bar") ⟨some 2, .crlf⟩) =
          some (.drawingGroup, some "bar", maskedBar.printed) := by
  have plain : ∀ k ∈ some "bar", PlainKey k := by
    rintro k ⟨⟩ c member
    have letters : "bar".toList = ['b', 'a', 'r'] := by decide
    rw [letters] at member
    simp only [List.mem_cons, List.not_mem_nil, or_false] at member
    rcases member with rfl | rfl | rfl <;> decide
  obtain ⟨nested, read, -⟩ :=
    markup_read_back maskedBar .drawingGroup (some "bar") ⟨some 2, .crlf⟩ plain
  exact ⟨plain, nested, read⟩

end PictureMarkup
