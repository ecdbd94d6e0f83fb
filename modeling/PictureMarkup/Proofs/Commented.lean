import Mathlib.Data.List.Induction
import PictureMarkup.Proofs.Reading

/-!
# Reading documents with comments

A reader that takes comments follows the scanner, and where the scanner is stopped by an
exclamation mark behind a bracket, it reads a comment. A comment ends at the first two dashes in
a row, and a bracket has to follow them. So what stands in a comment is made of characters that
are no dashes and of dashes with such a character behind them (`CommentBody`): it holds no two
dashes in a row and does not end in a dash (`commentBody_iff`).

Of a document whose names, values, texts and comments are of such characters (`Node.Legible`)
the reader finds the tags and texts, and apart from them the comments, in the order in which
they were written and in any layout (`Node.scanCommented_render`). Comments stand between whole
elements, so that the tags nest, and they leave no trace in the tree.
-/

namespace PictureMarkup.Markup

/-! ## Comments -/

/-- What may stand in a comment. -/
inductive CommentBody : List Char → Prop
  | nil : CommentBody []
  | char {c : Char} {cs : List Char} (other : c ≠ '-') (rest : CommentBody cs) :
      CommentBody (c :: cs)
  | dash {c : Char} {cs : List Char} (other : c ≠ '-') (rest : CommentBody cs) :
      CommentBody ('-' :: c :: cs)

theorem CommentBody.apart {cs : List Char} (body : CommentBody cs) :
    ¬['-', '-'] <:+: cs := by
  induction body with
  | nil => simp
  | char other _ ih => simp [List.infix_cons_iff, other.symm, ih]
  | dash other _ ih => simp [List.infix_cons_iff, other.symm, ih]

theorem CommentBody.getLast?_ne {cs : List Char} (body : CommentBody cs) :
    cs.getLast? ≠ some '-' := by
  induction body with
  | nil => simp
  | @char c cs other rest ih =>
      cases cs with
      | nil => simpa using other
      | cons d cs => rwa [List.getLast?_cons_cons]
  | @dash c cs other rest ih =>
      cases cs with
      | nil => simpa using other
      | cons d cs => rwa [List.getLast?_cons_cons, List.getLast?_cons_cons]

/-- A text may stand in a comment if it holds no two dashes in a row and does not end in one. -/
theorem commentBody_iff (cs : List Char) :
    CommentBody cs ↔ ¬['-', '-'] <:+: cs ∧ cs.getLast? ≠ some '-' := by
  refine ⟨fun body => ⟨body.apart, body.getLast?_ne⟩, ?_⟩
  rintro ⟨apart, last⟩
  -- two characters at a time, since a dash is taken together with what follows it
  induction cs using List.twoStepInduction with
  | nil => exact .nil
  | singleton c =>
      refine .char ?_ .nil
      rintro rfl
      exact last rfl
  | cons_cons c d cs shorter longer =>
      have apartTail : ¬['-', '-'] <:+: d :: cs := fun inside => apart (List.infix_cons inside)
      have lastTail : (d :: cs).getLast? ≠ some '-' := by rwa [List.getLast?_cons_cons] at last
      by_cases dash : c = '-'
      · subst dash
        have other : d ≠ '-' := by
          rintro rfl
          exact apart ⟨[], cs, rfl⟩
        have apartRest : ¬['-', '-'] <:+: cs := fun inside => apartTail (List.infix_cons inside)
        refine .dash other (shorter apartRest fun ends => ?_)
        cases cs with
        | nil => simp at ends
        | cons e cs => exact lastTail (by rwa [List.getLast?_cons_cons])
      · exact .char dash (longer d apartTail lastTail)

/-! ## The reader -/

/-- How much of a comment has been read. -/
inductive CommentMode where
  /-- A bracket and an exclamation mark. -/
  | bang
  /-- The first dash behind them. -/
  | dash
  | body (seen : List Char)
  /-- What has been seen, and a dash behind it. -/
  | bodyDash (seen : List Char)
  /-- What has been seen, and two dashes behind it. -/
  | ending (seen : List Char)

/-- A scanner that takes comments, with those it has read. -/
inductive Reader where
  | tags (s : Scanner) (comments : List String)
  | comment (ts : List Token) (comments : List String) (mode : CommentMode)

/-- The scanner is right behind a bracket. -/
def Scanner.atTag : Scanner → Bool
  | ⟨_, .name []⟩ => true
  | _ => false

namespace Reader

/-- Go on in a comment. -/
def inComment (ts : List Token) (comments : List String) (c : Char) :
    CommentMode → Option Reader
  | .bang => if c = '-' then some (.comment ts comments .dash) else none
  | .dash => if c = '-' then some (.comment ts comments (.body [])) else none
  | .body seen =>
    some (.comment ts comments (if c = '-' then .bodyDash seen else .body (seen ++ [c])))
  | .bodyDash seen =>
    some (.comment ts comments (if c = '-' then .ending seen else .body (seen ++ ['-', c])))
  | .ending seen =>
    if c = '>' then some (.tags ⟨ts, .text []⟩ (comments ++ [String.ofList seen])) else none

/-- Read one more character. A tag that begins with an exclamation mark is a comment. -/
def step : Reader → Char → Option Reader
  | .tags s comments, c =>
    match s.step c with
    | some t => some (.tags t comments)
    | none => if s.atTag && c == '!' then some (.comment s.tokens comments .bang) else none
  | .comment ts comments mode, c => inComment ts comments c mode

/-- The tokens and the comments of a document that ends outside of tags and comments. -/
def result : Reader → Option (List Token × List String)
  | .tags s comments => s.result.map fun ts => (ts, comments)
  | .comment .. => none

end Reader

/-- The tags and texts of a document, and its comments. -/
def scanCommented (text : String) : Option (List Token × List String) :=
  (text.toList.foldlM Reader.step (.tags {} [])).bind Reader.result

/-- The tree of some tags and texts. -/
def build (tokens : List Token) : Option Tree :=
  (tokens.foldlM Builder.step {}).bind Builder.result

/-! ## Runs of the reader -/

namespace Reader

/-- The reader goes wherever the scanner goes. -/
theorem reaches_tags {s t : Scanner} {cs : List Char} (comments : List String)
    (reaches : Reaches Scanner.step s cs t) :
    Reaches step (.tags s comments) cs (.tags t comments) := by
  refine reaches.map (Reader.tags · comments) fun moved => ?_
  rw [step, moved]

theorem reaches_body (ts : List Token) (comments : List String) {body : List Char}
    (isBody : CommentBody body) (seen : List Char) :
    Reaches step (.comment ts comments (.body seen)) body
      (.comment ts comments (.body (seen ++ body))) := by
  induction isBody generalizing seen with
  | nil =>
      rw [List.append_nil]
      exact .nil
  | @char c cs other rest ih =>
      have taken : step (.comment ts comments (.body seen)) c =
          some (.comment ts comments (.body (seen ++ [c]))) := by
        rw [step, inComment, if_neg other]
      have later := ih (seen ++ [c])
      rw [List.append_assoc] at later
      exact .cons taken later
  | @dash c cs other rest ih =>
      have taken : step (.comment ts comments (.bodyDash seen)) c =
          some (.comment ts comments (.body (seen ++ ['-', c]))) := by
        rw [step, inComment, if_neg other]
      have later := ih (seen ++ ['-', c])
      rw [List.append_assoc] at later
      exact .cons rfl (.cons taken later)

/-- A comment is read between texts, and it is kept. -/
theorem reaches_comment (ts : List Token) (comments : List String) (seen : List Char)
    {body : List Char} (isBody : CommentBody body) :
    Reaches step (.tags ⟨ts, .text seen⟩ comments) ("<!--".toList ++ (body ++ "-->".toList))
      (.tags ⟨ts ++ textTokens seen, .text []⟩ (comments ++ [String.ofList body])) := by
  have opened : step (.tags ⟨ts, .text seen⟩ comments) '<' =
      some (.tags ⟨ts ++ textTokens seen, .name []⟩ comments) := rfl
  have marked : step (.tags ⟨ts ++ textTokens seen, .name []⟩ comments) '!' =
      some (.comment (ts ++ textTokens seen) comments .bang) := rfl
  have closed : step (.comment (ts ++ textTokens seen) comments (.ending body)) '>' =
      some (.tags ⟨ts ++ textTokens seen, .text []⟩ (comments ++ [String.ofList body])) := rfl
  have read := reaches_body (ts ++ textTokens seen) comments isBody []
  refine .append (.cons opened (.cons marked (.cons rfl (.single rfl)))) (read.append ?_)
  exact .cons rfl (.cons rfl (.single closed))

end Reader

/-! ## Documents with comments -/

mutual

/-- All that a part of a document is made of can be read back, and so can its comments. -/
def Node.Legible : Node → Prop
  | .element name attributes content =>
    isName name ∧ areAttributes attributes ∧ AllLegible content
  | .verbatim name text => isName name ∧ isText text
  | .comment text => CommentBody text.toList ∧ '\n' ∉ text.toList

/-- Every node can be read with the comments between them. -/
def AllLegible : List Node → Prop
  | [] => True
  | n :: ns => n.Legible ∧ AllLegible ns

end

theorem allLegible_iff (ns : List Node) : AllLegible ns ↔ ∀ n ∈ ns, n.Legible := by
  induction ns with
  | nil => simp [AllLegible]
  | cons n ns ih => simp [AllLegible, ih]

mutual

/-- A part of a document that can be read without comments has none. -/
theorem Node.Readable.legible : ∀ {n : Node}, n.Readable → n.Legible
  | .element _ _ _, ⟨name, attributes, content⟩ => ⟨name, attributes, AllReadable.legible content⟩
  | .verbatim _ _, readable => readable

theorem AllReadable.legible : ∀ {ns : List Node}, AllReadable ns → AllLegible ns
  | [], _ => trivial
  | _ :: _, ⟨first, others⟩ => ⟨first.legible, AllReadable.legible others⟩

end

mutual

/-- The comments in a part of a document. -/
def Node.comments : Node → List String
  | .element _ _ content => commentsOf content
  | .verbatim _ _ => []
  | .comment text => [text]

/-- The comments among some nodes. -/
def commentsOf : List Node → List String
  | [] => []
  | n :: ns => n.comments ++ commentsOf ns

end

mutual

/-- What is read of a part of a document, where comments are nothing. -/
def Node.trees : Node → List Tree
  | .element name attributes content => [.element name attributes (treesIn content)]
  | .verbatim name text => [.element name [] [.text text]]
  | .comment _ => []

/-- The trees of some nodes, comments left out. -/
def treesIn : List Node → List Tree
  | [] => []
  | n :: ns => n.trees ++ treesIn ns

end

theorem treesIn_append (ns ms : List Node) : treesIn (ns ++ ms) = treesIn ns ++ treesIn ms := by
  induction ns with
  | nil => rfl
  | cons n ns ih => simp [treesIn, ih]

theorem commentsOf_append (ns ms : List Node) :
    commentsOf (ns ++ ms) = commentsOf ns ++ commentsOf ms := by
  induction ns with
  | nil => rfl
  | cons n ns ih => simp [commentsOf, ih]

mutual

/-- Without comments the tree is the one that is read without them. -/
theorem Node.Readable.trees_eq : ∀ {n : Node}, n.Readable → n.trees = [n.tree]
  | .element name attributes content, ⟨_, _, inside⟩ => by
    rw [Node.trees, Node.tree, AllReadable.treesIn_eq inside]
  | .verbatim _ _, _ => rfl

theorem AllReadable.treesIn_eq : ∀ {ns : List Node}, AllReadable ns → treesIn ns = treesOf ns
  | [], _ => rfl
  | n :: ns, ⟨first, others⟩ => by
    rw [treesIn, treesOf, first.trees_eq, AllReadable.treesIn_eq others]
    rfl

end

mutual

theorem Node.Readable.comments_eq : ∀ {n : Node}, n.Readable → n.comments = []
  | .element _ _ _, ⟨_, _, inside⟩ => AllReadable.commentsOf_eq inside
  | .verbatim _ _, _ => rfl

theorem AllReadable.commentsOf_eq : ∀ {ns : List Node}, AllReadable ns → commentsOf ns = []
  | [], _ => rfl
  | n :: ns, ⟨first, others⟩ => by
    rw [commentsOf, first.comments_eq, AllReadable.commentsOf_eq others]
    rfl

end

section

variable {indent : Option Nat} {ending : LineEnding}

open Reader

mutual

/-- Behind white space the reader reads a part of a document as its tags, texts and comments. -/
theorem Node.reaches_commented : ∀ (n : Node) (depth : Nat) {seen : List Char} (ts : List Token)
    (comments : List String), n.Legible → seen.all isBlank →
      Reaches step (.tags ⟨ts, .text seen⟩ comments)
        ((n.chars indent depth).flatMap (endedChar ending))
        (.tags ⟨ts ++ n.tokens, .text []⟩ (comments ++ n.comments))
  | .element name attributes [], depth, seen, ts, comments, ⟨isName, readable, _⟩, blank => by
    have empty : Node.Readable (.element name attributes []) := ⟨isName, readable, trivial⟩
    rw [Node.comments, commentsOf, List.append_nil]
    exact reaches_tags comments (Node.reaches _ depth ts empty blank)
  | .element name attributes (n :: ns), depth, seen, ts, comments,
      ⟨isName, readable, content⟩, blank => by
    obtain ⟨s, opened, inside⟩ := Scanner.reaches_openingChars ts seen isName readable
    rw [textTokens_of_blank blank, List.append_nil] at inside
    have finish : step (.tags s comments) '>' =
        some (.tags ⟨ts ++ [.start name attributes], .text []⟩ comments) := by
      rw [step, inside '>' (by decide)]
      rfl
    have content := reaches_commentedContent (n :: ns) (depth + 1)
      (ts ++ [.start name attributes]) comments content
    -- the line break in front of the closing tag has been seen, but makes no text
    have closed := Scanner.reaches_closingChars
      (ts ++ [.start name attributes] ++ tokensOf (n :: ns))
      ((lineBreak indent depth).flatMap (endedChar ending)) isName
    rw [textTokens_of_blank (isBlank_lineBreak indent depth ending), List.append_nil] at closed
    have closing := reaches_tags (comments ++ commentsOf (n :: ns))
      ((reaches_lineBreak depth _).append closed)
    rw [Node.chars, List.flatMap_append, List.flatMap_cons, List.flatMap_append,
      List.flatMap_append, flatMap_endedChar ending (newline_notMem_openingChars isName readable),
      flatMap_endedChar ending (newline_notMem_closingChars isName)]
    have whole := (reaches_tags comments opened).append (.cons finish (content.append closing))
    rw [List.append_assoc, List.append_assoc] at whole
    exact whole
  | .verbatim name text, depth, seen, ts, comments, readable, blank => by
    have whole : Node.Readable (.verbatim name text) := readable
    rw [Node.comments, List.append_nil]
    exact reaches_tags comments (Node.reaches _ depth ts whole blank)
  | .comment text, depth, seen, ts, comments, ⟨body, single⟩, blank => by
    have read := reaches_comment ts comments seen body
    have plain : '\n' ∉ "<!--".toList ++ (text.toList ++ "-->".toList) := by simp [single]
    rw [textTokens_of_blank blank, String.ofList_toList] at read
    rw [Node.chars, flatMap_endedChar ending plain]
    exact read

theorem reaches_commentedContent : ∀ (ns : List Node) (depth : Nat) (ts : List Token)
    (comments : List String), AllLegible ns →
      Reaches step (.tags ⟨ts, .text []⟩ comments)
        ((contentChars indent depth ns).flatMap (endedChar ending))
        (.tags ⟨ts ++ tokensOf ns, .text []⟩ (comments ++ commentsOf ns))
  | [], depth, ts, comments, _ => by
    rw [tokensOf, commentsOf, List.append_nil, List.append_nil]
    exact .nil
  | n :: ns, depth, ts, comments, ⟨first, others⟩ => by
    have read := n.reaches_commented depth ts comments first (isBlank_lineBreak indent depth ending)
    have rest := reaches_commentedContent ns depth (ts ++ n.tokens) (comments ++ n.comments) others
    rw [contentChars, List.flatMap_append, List.flatMap_append, tokensOf, commentsOf]
    have whole := (reaches_tags comments (reaches_lineBreak depth ts)).append (read.append rest)
    rw [List.append_assoc, List.append_assoc] at whole
    exact whole

end

end

/-- The reader finds the tags and texts of a legible document in any layout, and its comments. -/
theorem Node.scanCommented_render {n : Node} (legible : n.Legible) (layout : Layout) :
    scanCommented (n.render layout) = some (n.tokens, n.comments) := by
  have blank : List.all [] isBlank := rfl
  have read : Reaches Reader.step (.tags {} [])
      ((n.chars layout.indent 0).flatMap (endedChar layout.lineEnding)) _ :=
    n.reaches_commented 0 [] [] legible blank
  unfold scanCommented Node.render
  rw [String.toList_ofList, read]
  simp [Reader.result, Scanner.result, textTokens]

/-! ## Elements with comments -/

mutual

/-- Between whole elements, a part of a document is one of them or nothing. -/
theorem Node.Legible.isContent : ∀ {n : Node} {rest : List Token}, n.Legible → IsContent rest →
    IsContent (n.tokens ++ rest)
  | .element _ _ [], _, _, rest => .element .empty rest
  | .element _ _ (_ :: _), _, ⟨_, _, content⟩, rest =>
    .element (.full (AllLegible.isContent content)) rest
  | .verbatim _ _, _, _, rest => .element (.full (.text .nil)) rest
  | .comment _, _, _, rest => rest

theorem AllLegible.isContent : ∀ {ns : List Node}, AllLegible ns → IsContent (tokensOf ns)
  | [], _ => .nil
  | _ :: _, ⟨first, others⟩ => first.isContent (AllLegible.isContent others)

end

open Builder

mutual

/-- The tags and texts of a part of a document add its tree to the content, if it has one. -/
theorem Node.Legible.builds : ∀ {n : Node} (around : List Open) (content : List Tree), n.Legible →
    Reaches step ⟨around, content⟩ n.tokens ⟨around, content ++ n.trees⟩
  | .element name attributes [], around, content, _ => .single rfl
  | .element name attributes (n :: ns), around, content, ⟨_, _, legible⟩ => by
    have inside := AllLegible.builds (⟨name, attributes, content⟩ :: around) [] legible
    have closed := step_finish name attributes content ([] ++ treesIn (n :: ns)) around
    exact .cons rfl (inside.append (.single closed))
  | .verbatim name text, around, content, _ => by
    have closed := step_finish name [] content [.text text] around
    exact .cons rfl (.cons rfl (.single closed))
  | .comment _, around, content, _ => by
    rw [Node.trees, List.append_nil]
    exact .nil

theorem AllLegible.builds : ∀ {ns : List Node} (around : List Open) (content : List Tree),
    AllLegible ns → Reaches step ⟨around, content⟩ (tokensOf ns) ⟨around, content ++ treesIn ns⟩
  | [], around, content, _ => by
    rw [treesIn, List.append_nil]
    exact .nil
  | n :: ns, around, content, ⟨first, others⟩ => by
    have rest := AllLegible.builds around (content ++ n.trees) others
    rw [List.append_assoc] at rest
    exact (first.builds around content).append rest

end

/-- The tree of an element is built from its tags, whatever its attributes are. -/
theorem build_element (name : String) (attributes : List (String × String)) {content : List Node}
    (legible : AllLegible content) : build (Node.element name attributes content).tokens =
      some (.element name attributes (treesIn content)) := by
  have built : Reaches step {} (Node.element name attributes content).tokens
      ⟨[], [.element name attributes (treesIn content)]⟩ := by
    cases content with
    | nil => exact .single rfl
    | cons n ns =>
        have inside := AllLegible.builds [⟨name, attributes, []⟩] [] legible
        have closed := step_finish name attributes [] ([] ++ treesIn (n :: ns)) []
        exact .cons rfl (inside.append (.single closed))
  rw [build, built]
  rfl

/-- The tags of a document with comments nest, and its tree is read without them. -/
theorem isElement_and_build {name : String} {attributes : List (String × String)}
    {content : List Node} (legible : (Node.element name attributes content).Legible) :
    IsElement (Node.element name attributes content).tokens ∧
      build (Node.element name attributes content).tokens =
        some (.element name attributes (treesIn content)) := by
  refine ⟨?_, build_element name attributes legible.2.2⟩
  cases content with
  | nil => exact .empty
  | cons n ns => exact .full (AllLegible.isContent legible.2.2)

end PictureMarkup.Markup
