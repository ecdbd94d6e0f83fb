import PictureMarkup.Proofs.Scanning

/-!
# Lines of a document

A document is a sequence of lines: tags, comments, and elements that hold a text
(`Node.lines`). The layout decides only what stands between them. On one line nothing does;
otherwise each line but the first stands behind a line break and spaces, as many for each
element that is open around the line (`Line.indented`).

So a document can be brought back from any layout to one line by deleting its line breaks
with the spaces after them (`unbroken`), as long as no line has a line break of its own. All
this is collected in `LaidOut`, and `Node.laidOut` proves it of every such document.
-/

namespace PictureMarkup.Markup

/-! ## Lines -/

/-- What stands on a line of its own. -/
inductive Line where
  | opening (name : String) (attributes : List (String × String))
  | closing (name : String)
  /-- An element without content. -/
  | empty (name : String) (attributes : List (String × String))
  /-- An element with its text. -/
  | verbatim (name text : String)
  | comment (text : String)

namespace Line

/-- The characters of a line, its indent left out. -/
def chars : Line → List Char
  | .opening name attributes => openingChars name attributes ++ ['>']
  | .closing name => closingChars name
  | .empty name attributes => openingChars name attributes ++ ['/', '>']
  | .verbatim name text => openingChars name [] ++ '>' :: (text.toList ++ closingChars name)
  | .comment text => "<!--".toList ++ (text.toList ++ "-->".toList)

/-- How many elements are open around a line, given how many are open in front of it. A closing
tag stands outside of its element. -/
def depthAt (depth : Nat) : Line → Nat
  | .closing _ => depth - 1
  | .opening .. | .empty .. | .verbatim .. | .comment _ => depth

/-- How many elements are open behind a line. -/
def depthAfter (depth : Nat) : Line → Nat
  | .opening .. => depth + 1
  | .closing _ => depth - 1
  | .empty .. | .verbatim .. | .comment _ => depth

/-- Every line is put between angle brackets. -/
theorem bracketed (l : Line) : ∃ inner, l.chars = '<' :: (inner ++ ['>']) := by
  cases l with
  | opening name attributes =>
      exact ⟨name.toList ++ attributes.flatMap attributeChars, by simp [chars, openingChars]⟩
  | closing name => exact ⟨'/' :: name.toList, by simp [chars, closingChars]⟩
  | empty name attributes =>
      refine ⟨name.toList ++ attributes.flatMap attributeChars ++ ['/'], ?_⟩
      simp [chars, openingChars]
  | verbatim name text =>
      refine ⟨name.toList ++ '>' :: (text.toList ++ '<' :: '/' :: name.toList), ?_⟩
      simp [chars, openingChars, closingChars]
  | comment text =>
      refine ⟨'!' :: '-' :: '-' :: (text.toList ++ ['-', '-']), ?_⟩
      simp [chars]

/-- The lines that follow some number of open elements, each behind a line break and as many
spaces for each element around it. -/
def indented (width : Nat) (ending : LineEnding) : Nat → List Line → List Char
  | _, [] => []
  | depth, l :: ls =>
    ending.text.toList ++ (List.replicate (min width 255 * l.depthAt depth) ' ' ++
      (l.chars ++ indented width ending (l.depthAfter depth) ls))

/-- Lines from the start of a document, the first of them behind nothing. -/
def laid (width : Nat) (ending : LineEnding) : List Line → List Char
  | [] => []
  | l :: ls => l.chars ++ indented width ending (l.depthAfter 0) ls

end Line

mutual

/-- The lines of a part of a document. -/
def Node.lines : Node → List Line
  | .element name attributes [] => [.empty name attributes]
  | .element name attributes (n :: ns) =>
    .opening name attributes :: (linesOf (n :: ns) ++ [.closing name])
  | .verbatim name text => [.verbatim name text]
  | .comment text => [.comment text]

/-- The lines of some nodes. -/
def linesOf : List Node → List Line
  | [] => []
  | n :: ns => n.lines ++ linesOf ns

end

/-- The text of lines as documents are written: in front of each line its line break. -/
def spread (indent : Option Nat) : Nat → List Line → List Char
  | _, [] => []
  | depth, l :: ls =>
    lineBreak indent (l.depthAt depth) ++ (l.chars ++ spread indent (l.depthAfter depth) ls)

mutual

/-- A node is written as its lines, each with its own indent. -/
theorem Node.spread_lines (indent : Option Nat) : ∀ (n : Node) (depth : Nat) (rest : List Line),
    spread indent depth (n.lines ++ rest) =
      lineBreak indent depth ++ (n.chars indent depth ++ spread indent depth rest)
  | .element name attributes [], depth, rest => by
    simp [Node.lines, Node.chars, spread, Line.depthAt, Line.depthAfter, Line.chars]
  | .element name attributes (n :: ns), depth, rest => by
    have content := spread_linesOf indent (n :: ns) (depth + 1) (.closing name :: rest)
    rw [Node.lines, List.cons_append, List.append_assoc, List.singleton_append, spread]
    -- inside the element the depth is one more, until its closing tag
    show lineBreak indent depth ++ (_ ++ spread indent (depth + 1) _) = _
    rw [content]
    simp [Node.chars, spread, Line.depthAt, Line.depthAfter, Line.chars]
  | .verbatim name text, depth, rest => by
    simp [Node.lines, Node.chars, spread, Line.depthAt, Line.depthAfter, Line.chars]
  | .comment text, depth, rest => by
    simp [Node.lines, Node.chars, spread, Line.depthAt, Line.depthAfter, Line.chars]

theorem spread_linesOf (indent : Option Nat) : ∀ (ns : List Node) (depth : Nat)
    (rest : List Line), spread indent depth (linesOf ns ++ rest) =
      contentChars indent depth ns ++ spread indent depth rest
  | [], depth, rest => rfl
  | n :: ns, depth, rest => by
    have first := n.spread_lines indent depth (linesOf ns ++ rest)
    have others := spread_linesOf indent ns depth rest
    rw [linesOf, List.append_assoc, first, others, contentChars]
    simp

end

/-- A document has a first line, at depth zero. -/
theorem Node.lines_eq_cons (n : Node) : ∃ l ls, n.lines = l :: ls ∧ l.depthAt 0 = 0 := by
  cases n with
  | element name attributes content =>
      cases content with
      | nil => exact ⟨_, _, rfl, rfl⟩
      | cons n ns => exact ⟨_, _, rfl, rfl⟩
  | verbatim name text => exact ⟨_, _, rfl, rfl⟩
  | comment text => exact ⟨_, _, rfl, rfl⟩

/-- The text of a document is that of its lines, without the line break of the first. -/
theorem Node.chars_eq (indent : Option Nat) {n : Node} {l : Line} {ls : List Line}
    (lines : n.lines = l :: ls) (top : l.depthAt 0 = 0) :
    n.chars indent 0 = l.chars ++ spread indent (l.depthAfter 0) ls := by
  have whole := n.spread_lines indent 0 []
  have first : spread indent 0 (l :: ls) =
      lineBreak indent 0 ++ (l.chars ++ spread indent (l.depthAfter 0) ls) := by rw [spread, top]
  have nothing : spread indent 0 [] = [] := rfl
  rw [List.append_nil, lines, first, nothing, List.append_nil] at whole
  exact (List.append_cancel_left whole).symm

theorem spread_none (ls : List Line) (depth : Nat) :
    spread none depth ls = ls.flatMap Line.chars := by
  induction ls generalizing depth with
  | nil => rfl
  | cons l ls ih => simp [spread, lineBreak, ih]

/-- Lines without line breaks of their own are broken by the line ending between them only. -/
theorem spread_some {ls : List Line} (single : ∀ l ∈ ls, '\n' ∉ l.chars) (width : Nat)
    (ending : LineEnding) (depth : Nat) :
    (spread (some width) depth ls).flatMap (endedChar ending) =
      Line.indented width ending depth ls := by
  induction ls generalizing depth with
  | nil => rfl
  | cons l ls ih =>
      have spaces : ∀ n, (List.replicate n ' ').flatMap (endedChar ending) =
          List.replicate n ' ' := by
        intro n
        apply flatMap_endedChar
        intro member
        exact absurd (List.eq_of_mem_replicate member) (by decide)
      have own := flatMap_endedChar ending (single l List.mem_cons_self)
      have rest := ih (fun k member => single k (List.mem_cons_of_mem l member)) (l.depthAfter depth)
      have newline : endedChar ending '\n' = ending.text.toList := if_pos rfl
      rw [spread, Line.indented, lineBreak, List.flatMap_append, List.flatMap_append,
        List.flatMap_cons, newline, spaces, own, rest, maximumIndent, Nat.mul_comm]
      simp

/-! ## Deleting line breaks -/

/-- The text without its line breaks, of either kind, and without the spaces after each. The flag
tells whether a line break and nothing but spaces came last. -/
def unbroken : Bool → List Char → List Char
  | _, [] => []
  | broken, c :: cs =>
    if c = '\n' ∨ c = '\r' ∧ cs.head? = some '\n' then unbroken true cs
    else if broken ∧ c = ' ' then unbroken true cs
    else c :: unbroken false cs

theorem unbroken_spaces (n : Nat) (cs : List Char) :
    unbroken true (List.replicate n ' ' ++ cs) = unbroken true cs := by
  induction n with
  | zero => rfl
  | succ n ih =>
      rw [List.replicate_succ, List.cons_append, unbroken, ih]
      simp

theorem unbroken_ending (ending : LineEnding) (broken : Bool) (cs : List Char) :
    unbroken broken (ending.text.toList ++ cs) = unbroken true cs := by
  cases ending with
  | lf =>
      show unbroken broken ('\n' :: cs) = _
      rw [unbroken, if_pos (.inl rfl)]
  | crlf =>
      show unbroken broken ('\r' :: '\n' :: cs) = _
      rw [unbroken, if_pos (.inr ⟨rfl, rfl⟩), unbroken, if_pos (.inl rfl)]

/-- Nothing is deleted up to a closing bracket if there is no line break before it. -/
theorem unbroken_single {cs : List Char} (single : '\n' ∉ cs) (rest : List Char) :
    unbroken false (cs ++ '>' :: rest) = cs ++ '>' :: unbroken false rest := by
  induction cs with
  | nil => rfl
  | cons c cs ih =>
      rw [List.mem_cons, not_or] at single
      obtain ⟨here, later⟩ := single
      -- a carriage return is kept as well, since no line feed follows it
      have next : (cs ++ '>' :: rest).head? ≠ some '\n' := by
        cases cs with
        | nil => simp
        | cons d cs =>
            intro feed
            exact later (Option.some.inj feed ▸ List.mem_cons_self)
      have kept : ¬(c = '\n' ∨ c = '\r' ∧ (cs ++ '>' :: rest).head? = some '\n') := by
        rintro (feed | ⟨-, feed⟩)
        · exact here feed.symm
        · exact next feed
      rw [List.cons_append, unbroken, if_neg kept, if_neg (by simp), ih later]
      rfl

/-- A line is kept whole, also behind a line break. -/
theorem unbroken_line {l : Line} (single : '\n' ∉ l.chars) (broken : Bool) (rest : List Char) :
    unbroken broken (l.chars ++ rest) = l.chars ++ unbroken false rest := by
  obtain ⟨inner, chars⟩ := l.bracketed
  rw [chars] at single ⊢
  have inside : '\n' ∉ inner := fun member => single (by simp [member])
  have whole := unbroken_single inside rest
  rw [List.cons_append, List.append_assoc, List.singleton_append, unbroken, if_neg (by simp),
    if_neg (by simp), whole]
  simp

theorem unbroken_flatMap {ls : List Line} (single : ∀ l ∈ ls, '\n' ∉ l.chars) :
    unbroken false (ls.flatMap Line.chars) = ls.flatMap Line.chars := by
  induction ls with
  | nil => rfl
  | cons l ls ih =>
      rw [List.flatMap_cons, unbroken_line (single l List.mem_cons_self),
        ih fun k member => single k (List.mem_cons_of_mem l member)]

/-- Without breaks and indents the lines are one behind the other. -/
theorem unbroken_indented {ls : List Line} (single : ∀ l ∈ ls, '\n' ∉ l.chars) (width : Nat)
    (ending : LineEnding) (depth : Nat) :
    unbroken false (Line.indented width ending depth ls) = ls.flatMap Line.chars := by
  induction ls generalizing depth with
  | nil => rfl
  | cons l ls ih =>
      rw [Line.indented, unbroken_ending, unbroken_spaces,
        unbroken_line (single l List.mem_cons_self),
        ih fun k member => single k (List.mem_cons_of_mem l member), List.flatMap_cons]

/-- Every line feed stands behind a carriage return. -/
def NoBareLineFeed (cs : List Char) : Prop :=
  ∀ before after, cs = before ++ '\n' :: after → before.getLast? = some '\r'

/-- With that line ending every line feed has a carriage return in front of it. -/
theorem noBareLineFeed_ended (cs : List Char) :
    NoBareLineFeed (cs.flatMap (endedChar .crlf)) := by
  induction cs with
  | nil =>
      intro before after split
      exact absurd split (by simp)
  | cons c cs ih =>
      intro before after split
      rw [List.flatMap_cons] at split
      by_cases feed : c = '\n'
      · have ended : endedChar .crlf c = ['\r', '\n'] := by
          rw [endedChar, if_pos feed]
          rfl
        rw [ended] at split
        -- a line feed is never written alone, so the split falls before, between or behind the two
        rcases before with _ | ⟨first, _ | ⟨second, before⟩⟩
        · exact absurd (List.cons.inj split).1 (by decide)
        · rw [List.getLast?_singleton, (List.cons.inj split).1]
        · have last := ih before after (List.cons.inj (List.cons.inj split).2).2
          rw [List.getLast?_cons, List.getLast?_cons, last]
          rfl
      · have ended : endedChar .crlf c = [c] := if_neg feed
        rw [ended] at split
        rcases before with _ | ⟨first, before⟩
        · exact absurd (List.cons.inj split).1 feed
        · have last := ih before after (List.cons.inj split).2
          rw [List.getLast?_cons, last]
          rfl

/-! ## Layout -/

/-- A text that depends on a layout is made of the same lines in every layout. -/
structure LaidOut (text : Layout → String) (lines : List Line) : Prop where
  /-- Without an indent the lines follow each other. -/
  joined : ∀ ending, (text ⟨none, ending⟩).toList = lines.flatMap Line.chars
  /-- With an indent there is a line break and there are spaces between any two lines. -/
  broken : ∀ width ending, (text ⟨some width, ending⟩).toList = Line.laid width ending lines
  /-- So a line break stands between a closing bracket and an opening one. -/
  bracketed : ∀ l ∈ lines, ∃ inner, l.chars = '<' :: (inner ++ ['>'])
  /-- Without line breaks and the spaces after them, every layout is the one line. -/
  restored : ∀ layout ending, unbroken false (text layout).toList = (text ⟨none, ending⟩).toList
  noBareLineFeed : ∀ indent, NoBareLineFeed (text ⟨indent, .crlf⟩).toList

mutual

/-- Nothing in a part of a document has a line break. -/
def Node.OneLine : Node → Prop
  | .element name attributes content =>
    '\n' ∉ name.toList ∧ (∀ a ∈ attributes, '\n' ∉ a.1.toList ∧ '\n' ∉ a.2.toList) ∧
      AllOneLine content
  | .verbatim name text => '\n' ∉ name.toList ∧ '\n' ∉ text.toList
  | .comment text => '\n' ∉ text.toList

/-- Every node is written on a single line. -/
def AllOneLine : List Node → Prop
  | [] => True
  | n :: ns => n.OneLine ∧ AllOneLine ns

end

mutual

/-- No line of a node on one line has a break in it. -/
theorem Node.OneLine.single : ∀ {n : Node}, n.OneLine → ∀ l ∈ n.lines, '\n' ∉ l.chars
  | .element name attributes [], ⟨own, each, _⟩, l, member => by
    rw [List.mem_singleton.mp member]
    simp [Line.chars, single_openingChars own each]
  | .element name attributes (n :: ns), ⟨own, each, content⟩, l, member => by
    rcases List.mem_cons.mp member with rfl | member
    · simp [Line.chars, single_openingChars own each]
    · rcases List.mem_append.mp member with inside | last
      · exact AllOneLine.single content l inside
      · rw [List.mem_singleton.mp last]
        simp [Line.chars, closingChars, own]
  | .verbatim name text, ⟨own, whole⟩, l, member => by
    rw [List.mem_singleton.mp member]
    simp [Line.chars, openingChars, closingChars, own, whole]
  | .comment text, whole, l, member => by
    have inside : '\n' ∉ text.toList := whole
    rw [List.mem_singleton.mp member]
    simp [Line.chars, inside]

theorem AllOneLine.single : ∀ {ns : List Node}, AllOneLine ns → ∀ l ∈ linesOf ns, '\n' ∉ l.chars
  | _ :: _, ⟨first, others⟩, l, member =>
    (List.mem_append.mp member).elim (first.single l) (AllOneLine.single others l)

end

/-- A document without line breaks of its own is the same in every layout but for the line
breaks and spaces between its lines. -/
theorem Node.laidOut {n : Node} (h : n.OneLine) : LaidOut n.render n.lines := by
  obtain ⟨l, ls, lines, top⟩ := n.lines_eq_cons
  have single := h.single
  rw [lines] at single
  have own := single l List.mem_cons_self
  have others : ∀ k ∈ ls, '\n' ∉ k.chars := fun k member => single k (List.mem_cons_of_mem l member)
  -- without an indent nothing is written between the lines, not even their ends
  have joined : ∀ ending, (n.render ⟨none, ending⟩).toList = n.lines.flatMap Line.chars := by
    intro ending
    have whole : '\n' ∉ (l :: ls).flatMap Line.chars := by
      intro inside
      obtain ⟨k, member, inside⟩ := List.mem_flatMap.mp inside
      exact single k member inside
    rw [Node.render, String.toList_ofList, Node.chars_eq none lines top, spread_none,
      ← List.flatMap_cons, flatMap_endedChar ending whole, lines]
  have broken : ∀ width ending,
      (n.render ⟨some width, ending⟩).toList = Line.laid width ending n.lines := by
    intro width ending
    rw [Node.render, String.toList_ofList, Node.chars_eq (some width) lines top,
      List.flatMap_append, flatMap_endedChar ending own, spread_some others, lines, Line.laid]
  refine ⟨joined, broken, fun k _ => k.bracketed, fun layout ending => ?_, fun indent => ?_⟩
  · obtain ⟨indent, ending'⟩ := layout
    rw [joined ending]
    cases indent with
    | none => rw [joined ending', lines, unbroken_flatMap single]
    | some width =>
        rw [broken width ending', lines, Line.laid, unbroken_line own, unbroken_indented others,
          List.flatMap_cons]
  · rw [Node.render, String.toList_ofList]
    exact noBareLineFeed_ended _

end PictureMarkup.Markup
