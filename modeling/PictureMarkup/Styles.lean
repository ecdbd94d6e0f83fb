import PictureMarkup.FileName
import PictureMarkup.Markup.Document

/-!
# Styles

Several drawings packaged as the resources of one document. Each has a key made from
its file name; a key that is taken gets the first free number behind it. A comment
with the file name stands before each resource, and on request a gallery that shows
all of them stands before the resources.
-/

namespace PictureMarkup

open Markup

namespace ResourceKey

/-- Both kinds of slash end a directory. -/
def isSeparator (c : Char) : Bool := c = '/' || c = '\\'

/-- What follows the last separator. -/
def fileName (path : List Char) : List Char :=
  (path.reverse.takeWhile fun c => !isSeparator c).reverse

/-- A character of a key: letters and digits stay. -/
def keyChar (c : Char) : Char := if c.isAlphanum then c else '_'

/-- The key of a file: an underscore and the stem of its name. -/
def ofPath (path : String) : String :=
  String.ofList ('_' :: (FileName.stem (fileName path.toList)).map keyChar)

/-- The key with a number behind it, without one for the first attempt. -/
def numbered (base : String) (n : Nat) : String :=
  if n = 0 then base else base ++ "_" ++ toString n

/-- Different suffixes make different keys. -/
theorem numbered_injective (base : String) {m n : Nat} (h : numbered base m = numbered base n) :
    m = n := by
  have chars := congrArg String.toList h
  unfold numbered at chars
  by_cases first : m = 0 <;> by_cases first' : n = 0
  · rw [first, first']
  · simp [first, first'] at chars
  · simp [first, first'] at chars
  · rw [if_neg first, if_neg first'] at chars
    simp only [String.toList_append, List.append_cancel_left_eq] at chars
    -- the digits of a number tell the number
    have values := congrArg (fun ds => Nat.ofDigitChars 10 ds 0) chars
    simpa [Nat.toString_eq_ofList_toDigits] using values

/-- The keys taken that none of the attempts before a number has met. -/
def unmet (taken : List String) (base : String) (n : Nat) : List String :=
  taken.filter fun k => k ∉ (List.range n).map (numbered base)

/-- An attempt that is taken is another key met. -/
theorem length_unmet_lt {taken : List String} {base : String} {n : Nat}
    (h : numbered base n ∈ taken) :
    (unmet taken base (n + 1)).length < (unmet taken base n).length := by
  have new : numbered base n ∉ (List.range n).map (numbered base) := by
    intro met
    obtain ⟨m, earlier, same⟩ := List.mem_map.mp met
    have := numbered_injective base same
    have := List.mem_range.mp earlier
    omega
  have fewer : unmet taken base (n + 1) =
      (unmet taken base n).filter fun k => k ≠ numbered base n := by
    unfold unmet
    rw [List.filter_filter, List.range_succ, List.map_append]
    congr 1
    funext k
    simp [and_comm]
  rw [fewer]
  refine List.length_filter_lt_length_iff_exists.mpr ⟨numbered base n, ?_, by simp⟩
  exact List.mem_filter.mpr ⟨h, by simpa using new⟩

/-- The first attempt from a number on that is not taken. The search ends because there are
only so many keys taken and every attempt is another one. -/
def firstFree (taken : List String) (base : String) (n : Nat) : String :=
  if numbered base n ∈ taken then firstFree taken base (n + 1) else numbered base n
termination_by (unmet taken base n).length
decreasing_by exact length_unmet_lt (by assumption)

end ResourceKey

namespace CommentText

/-- Put a space into each pair of dashes, pair after pair from the left. -/
def splitPairs : List Char → List Char
  | [] => []
  | [c] => [c]
  | c :: d :: r =>
    if c = '-' ∧ d = '-' then '-' :: ' ' :: '-' :: splitPairs r
    else c :: splitPairs (d :: r)

/-- The number of places where a dash follows a dash. -/
def adjacentDashes : List Char → Nat
  | [] => 0
  | [_] => 0
  | c :: d :: r => (if c = '-' ∧ d = '-' then 1 else 0) + adjacentDashes (d :: r)

theorem head?_splitPairs (s : List Char) : (splitPairs s).head? = s.head? := by
  fun_cases splitPairs s <;> simp_all

theorem adjacentDashes_cons (c : Char) (s : List Char) :
    adjacentDashes (c :: s) =
      (if c = '-' ∧ s.head? = some '-' then 1 else 0) + adjacentDashes s := by
  cases s <;> simp [adjacentDashes]

/-- A pass leaves no more pairs of dashes than it found. -/
theorem adjacentDashes_splitPairs_le (s : List Char) :
    adjacentDashes (splitPairs s) ≤ adjacentDashes s := by
  fun_induction splitPairs s with
  | case1 => simp
  | case2 => simp
  | case3 c d r h ih =>
    obtain ⟨rfl, rfl⟩ := h
    simp only [adjacentDashes_cons, head?_splitPairs, List.head?_cons]
    simp
    omega
  | case4 c d r h ih =>
    rw [adjacentDashes_cons, head?_splitPairs, adjacentDashes_cons c]
    omega

/-- Where there is a pair, a pass leaves fewer: this ends the loop. -/
theorem adjacentDashes_splitPairs_lt {s : List Char} (h : adjacentDashes s ≠ 0) :
    adjacentDashes (splitPairs s) < adjacentDashes s := by
  fun_induction splitPairs s with
  | case1 => simp [adjacentDashes] at h
  | case2 => simp [adjacentDashes] at h
  | case3 c d r hd _ =>
    obtain ⟨rfl, rfl⟩ := hd
    have := adjacentDashes_splitPairs_le r
    simp only [adjacentDashes_cons, head?_splitPairs, List.head?_cons]
    simp
    omega
  | case4 c d r hd ih =>
    have hs : ¬(c = '-' ∧ (d :: r).head? = some '-') := by simpa using hd
    rw [adjacentDashes_cons, if_neg hs, Nat.zero_add] at h
    rw [adjacentDashes_cons, head?_splitPairs, adjacentDashes_cons c, if_neg hs]
    simpa using ih h

/-- Split pairs of dashes until there are none, since a comment must not hold any. -/
def separate (s : List Char) : List Char :=
  if adjacentDashes s = 0 then s else separate (splitPairs s)
termination_by adjacentDashes s
decreasing_by exact adjacentDashes_splitPairs_lt (by assumption)

/-- The text of the comment that names a file. -/
def ofFileName (name : String) : String :=
  String.ofList (' ' :: (separate name.toList ++ [' ']))

end CommentText

/-- A drawing on its way into a document. -/
structure StyleEntry where
  fileName : String
  kind : DocumentKind
  root : Group Float

/-- Drawings with their keys, in the order in which they were added. -/
structure StylesDocument where
  preview : Bool
  /-- The keys that are taken. -/
  reserved : List String := []
  entries : List (String × StyleEntry) := []

namespace StylesDocument

/-- The keys of the drawings in their order. -/
def keys (d : StylesDocument) : List String := d.entries.map Prod.fst

/-- Nothing has been added. -/
def isEmpty (d : StylesDocument) : Bool := d.entries.isEmpty

/-- The key that a file would get. -/
def nextKey (d : StylesDocument) (fileName : String) : String :=
  ResourceKey.firstFree d.reserved (ResourceKey.ofPath fileName) 0

/-- Add a drawing at the end and take the next free key for it. -/
def push (d : StylesDocument) (e : StyleEntry) : StylesDocument :=
  let key := d.nextKey e.fileName
  { d with reserved := key :: d.reserved, entries := d.entries ++ [(key, e)] }

/-- How the gallery shows a resource. -/
def galleryNode (key : String) (kind : DocumentKind) : Node :=
  let resource := "\x7bDynamicResource " ++ key ++ "\x7d"
  match kind with
  | .image => .element "ContentControl" [("Content", resource)] []
  | .drawingGroup =>
    block "Image" (block "Image.Source" (.element "DrawingImage" [("Drawing", resource)] []))

/-- The gallery. -/
def galleryBlock (d : StylesDocument) : Node :=
  block "Design.PreviewWith" <|
    .element "ScrollViewer"
      [("HorizontalScrollBarVisibility", "Auto"), ("VerticalScrollBarVisibility", "Auto")]
      [.element "WrapPanel" [("ItemWidth", "50"), ("ItemHeight", "50"), ("MaxWidth", "400")]
        (d.entries.map fun e => galleryNode e.1 e.2.kind)]

/-- A resource behind the comment that names its file. -/
def resourceNodes (key : String) (e : StyleEntry) : List Node :=
  [.comment (CommentText.ofFileName e.fileName), e.root.document e.kind (some key)]

/-- The outermost element. -/
def document (d : StylesDocument) : Node :=
  .element "Styles"
    [("xmlns", "https://github.com/avaloniaui"),
      ("xmlns:x", "http://schemas.microsoft.com/winfx/2006/xaml")]
    ((if d.preview then [d.galleryBlock] else []) ++
      [block "Style" (.element "Style.Resources" []
        (d.entries.flatMap fun e => resourceNodes e.1 e.2))])

/-- The markup of the whole document. -/
def markup (d : StylesDocument) (layout : Layout) : String := d.document.render layout

end StylesDocument

end PictureMarkup
