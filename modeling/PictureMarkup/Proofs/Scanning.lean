import PictureMarkup.Markup.Node

/-!
# Reading tags

A scanner reads a document character by character and collects its tags and texts. It
takes attributes in double quotes only, no references and no comments, and it drops the
white space between tags; whatever does not fit is refused.

Of a readable document it finds the tags in the order in which they were written, however
the document is laid out (`Node.scan_render`). They nest: each tag that opens an element
is closed by a tag of the same name, the one opened last first (`Token.IsElement`).
-/

namespace PictureMarkup.Markup

/-! ## Folds that may fail -/

section

variable {σ τ : Type} {step : σ → τ → Option σ} {s t u : σ} {xs ys : List τ}

/-- Some steps lead from one state to another. -/
def Reaches (step : σ → τ → Option σ) (s : σ) (xs : List τ) (t : σ) : Prop :=
  xs.foldlM step s = some t

namespace Reaches

theorem nil : Reaches step s [] s := rfl

theorem cons {x : τ} (first : step s x = some t) (rest : Reaches step t xs u) :
    Reaches step s (x :: xs) u := by
  unfold Reaches
  rw [List.foldlM_cons, first]
  exact rest

theorem single {x : τ} (first : step s x = some t) : Reaches step s [x] t := cons first nil

theorem append (first : Reaches step s xs t) (rest : Reaches step t ys u) :
    Reaches step s (xs ++ ys) u := by
  unfold Reaches at *
  rw [List.foldlM_append, first]
  exact rest

theorem unique (h : Reaches step s xs t) (h' : Reaches step s xs u) : t = u :=
  Option.some.inj (h.symm.trans h')

theorem of_append (h : Reaches step s (xs ++ ys) u) :
    ∃ t, Reaches step s xs t ∧ Reaches step t ys u := by
  unfold Reaches at h
  rw [List.foldlM_append] at h
  exact Option.bind_eq_some_iff.mp h

theorem of_cons {x : τ} (h : Reaches step s (x :: xs) u) :
    ∃ t, step s x = some t ∧ Reaches step t xs u := by
  unfold Reaches at h
  rw [List.foldlM_cons] at h
  exact Option.bind_eq_some_iff.mp h

theorem of_single {x : τ} (h : Reaches step s [x] t) : step s x = some t := by
  obtain ⟨u, first, rest⟩ := h.of_cons
  rw [first, Option.some.inj rest]

/-- Steps are followed by other steps that go wherever they go. -/
theorem map {υ : Type} {other : υ → τ → Option υ} (f : σ → υ)
    (follows : ∀ {s x t}, step s x = some t → other (f s) x = some (f t))
    (h : Reaches step s xs t) : Reaches other (f s) xs (f t) := by
  induction xs generalizing s with
  | nil =>
      cases Option.some.inj h
      exact nil
  | cons x xs ih =>
      obtain ⟨u, first, rest⟩ := h.of_cons
      exact cons (follows first) (ih rest)

/-- Steps that each add what they read to what has been seen. -/
theorem run (mode : List τ → σ) {accepts : τ → Prop}
    (accept : ∀ seen x, accepts x → step (mode seen) x = some (mode (seen ++ [x])))
    (all : ∀ x ∈ xs, accepts x) (seen : List τ) :
    Reaches step (mode seen) xs (mode (seen ++ xs)) := by
  induction xs generalizing seen with
  | nil =>
      rw [List.append_nil]
      exact nil
  | cons x xs ih =>
      have rest := ih (fun y member => all y (List.mem_cons_of_mem x member)) (seen ++ [x])
      rw [List.append_assoc] at rest
      exact cons (accept seen x (all x List.mem_cons_self)) rest

end Reaches

end

/-! ## The scanner -/

/-- A tag, or a text between tags. -/
inductive Token where
  | start (name : String) (attributes : List (String × String))
  | empty (name : String) (attributes : List (String × String))
  | finish (name : String)
  | text (t : String)
  deriving DecidableEq

/-- The part of a document that a scanner is in, with what it has seen of it. -/
inductive Mode where
  | text (seen : List Char)
  | name (seen : List Char)
  | key (name : String) (attributes : List (String × String)) (seen : List Char)
  /-- Behind an equals sign. -/
  | equals (name : String) (attributes : List (String × String)) (key : String)
  | value (name : String) (attributes : List (String × String)) (key : String)
      (seen : List Char)
  /-- Behind a closing quote. -/
  | valued (name : String) (attributes : List (String × String))
  | slash (name : String) (attributes : List (String × String))
  | closing (seen : List Char)

/-- The tokens found so far and what is being read. -/
structure Scanner where
  tokens : List Token := []
  mode : Mode := .text []

/-- A character of a name. -/
def isNameChar (c : Char) : Bool := c.isAlphanum || c == '.' || c == ':'

/-- A character between tags that counts for nothing. -/
def isBlank (c : Char) : Bool := c == ' ' || c == '\n' || c == '\r'

/-- A character that stands for itself in texts and values. -/
def isLiteral (c : Char) : Bool := c != '<' && c != '&'

/-- The token of a text, unless it is white space. -/
def textTokens (seen : List Char) : List Token :=
  if seen.all isBlank then [] else [.text (String.ofList seen)]

namespace Scanner

/-- Go on behind the name or an attribute of a tag. -/
def inTag (ts : List Token) (name : String) (attributes : List (String × String)) (c : Char) :
    Option Scanner :=
  if c = ' ' then some ⟨ts, .key name attributes []⟩
  else if c = '>' then some ⟨ts ++ [.start name attributes], .text []⟩
  else if c = '/' then some ⟨ts, .slash name attributes⟩
  else none

/-- Read one more character. -/
def step : Scanner → Char → Option Scanner
  | ⟨ts, .text seen⟩, c =>
    if c = '<' then some ⟨ts ++ textTokens seen, .name []⟩
    else if isLiteral c then some ⟨ts, .text (seen ++ [c])⟩ else none
  | ⟨ts, .name seen⟩, c =>
    if isNameChar c then some ⟨ts, .name (seen ++ [c])⟩
    else if seen ≠ [] then inTag ts (String.ofList seen) [] c
    else if c = '/' then some ⟨ts, .closing []⟩ else none
  | ⟨ts, .key name attributes seen⟩, c =>
    if isNameChar c then some ⟨ts, .key name attributes (seen ++ [c])⟩
    else if c = '=' ∧ seen ≠ [] then some ⟨ts, .equals name attributes (String.ofList seen)⟩
    else none
  | ⟨ts, .equals name attributes key⟩, c =>
    if c = '"' then some ⟨ts, .value name attributes key []⟩ else none
  | ⟨ts, .value name attributes key seen⟩, c =>
    if c = '"' then some ⟨ts, .valued name (attributes ++ [(key, String.ofList seen)])⟩
    else if isLiteral c then some ⟨ts, .value name attributes key (seen ++ [c])⟩ else none
  | ⟨ts, .valued name attributes⟩, c => inTag ts name attributes c
  | ⟨ts, .slash name attributes⟩, c =>
    if c = '>' then some ⟨ts ++ [.empty name attributes], .text []⟩ else none
  | ⟨ts, .closing seen⟩, c =>
    if isNameChar c then some ⟨ts, .closing (seen ++ [c])⟩
    else if c = '>' then some ⟨ts ++ [.finish (String.ofList seen)], .text []⟩ else none

/-- The tokens of a document that ends outside of tags. -/
def result (s : Scanner) : Option (List Token) :=
  match s.mode with
  | .text seen => some (s.tokens ++ textTokens seen)
  | _ => none

end Scanner

/-- The tags and texts of a document. -/
def scan (text : String) : Option (List Token) :=
  (text.toList.foldlM Scanner.step {}).bind Scanner.result

/-! ## Readable documents -/

/-- A name: some characters of a name, and at least one. -/
def isName (s : String) : Bool := !s.toList.isEmpty && s.toList.all isNameChar

/-- A value that is written as it stands and read back so. -/
def isValue (s : String) : Bool := s.toList.all fun c => isLiteral c && c != '"' && c != '\n'

/-- A text that is not taken for white space. -/
def isText (s : String) : Bool :=
  !s.toList.all isBlank && s.toList.all fun c => isLiteral c && c != '\n'

theorem ne_nil_of_isName {s : String} (h : isName s) : s.toList ≠ [] := by
  have some := (Bool.and_eq_true_iff.mp h).1
  rw [Bool.not_eq_true', List.isEmpty_eq_false_iff] at some
  exact some

theorem isNameChar_of_isName {s : String} (h : isName s) : ∀ c ∈ s.toList, isNameChar c :=
  List.all_eq_true.mp (Bool.and_eq_true_iff.mp h).2

theorem literal_of_isValue {s : String} (h : isValue s) :
    ∀ c ∈ s.toList, isLiteral c ∧ c ≠ '"' ∧ c ≠ '\n' := by
  intro c member
  have plain := List.all_eq_true.mp h c member
  simp only [Bool.and_eq_true, bne_iff_ne] at plain
  exact ⟨plain.1.1, plain.1.2, plain.2⟩

theorem literal_of_isText {s : String} (h : isText s) :
    ∀ c ∈ s.toList, isLiteral c ∧ c ≠ '\n' := by
  intro c member
  have plain := List.all_eq_true.mp (Bool.and_eq_true_iff.mp h).2 c member
  rw [Bool.and_eq_true, bne_iff_ne] at plain
  exact plain

/-- Every attribute has a name and a value that can be written between quotes. -/
def areAttributes (attributes : List (String × String)) : Bool :=
  attributes.all fun a => isName a.1 && isValue a.2

mutual

/-- All that a part of a document is made of can be read back. -/
def Node.Readable : Node → Prop
  | .element name attributes content =>
    isName name ∧ areAttributes attributes ∧ AllReadable content
  | .verbatim name text => isName name ∧ isText text
  | .comment _ => False

/-- Every node can be read back. -/
def AllReadable : List Node → Prop
  | [] => True
  | n :: ns => n.Readable ∧ AllReadable ns

end

mutual

/-- The tags and texts of a part of a document. -/
def Node.tokens : Node → List Token
  | .element name attributes [] => [.empty name attributes]
  | .element name attributes (n :: ns) =>
    .start name attributes :: (tokensOf (n :: ns) ++ [.finish name])
  | .verbatim name text => [.start name [], .text text, .finish name]
  | .comment _ => []

/-- The tokens of some nodes. -/
def tokensOf : List Node → List Token
  | [] => []
  | n :: ns => n.tokens ++ tokensOf ns

end

/-! ## Runs of the scanner -/

theorem flatMap_self {τ : Type} {f : τ → List τ} {xs : List τ} (h : ∀ x ∈ xs, f x = [x]) :
    xs.flatMap f = xs := by
  induction xs with
  | nil => rfl
  | cons x xs ih =>
      rw [List.flatMap_cons, h x List.mem_cons_self,
        ih fun y member => h y (List.mem_cons_of_mem x member)]
      rfl

/-- A value needs no escapes. -/
theorem flatMap_attributeChar {value : String} (h : isValue value) :
    value.toList.flatMap attributeChar = value.toList :=
  flatMap_self fun c member => if_neg (literal_of_isValue h c member).2.1

namespace Scanner

variable {ts : List Token} {name : String} {attributes : List (String × String)}

/-- The scanner is in a tag, behind its name or an attribute. -/
def Inside (s : Scanner) (ts : List Token) (name : String)
    (attributes : List (String × String)) : Prop :=
  ∀ c, isNameChar c = false → s.step c = inTag ts name attributes c

/-- What a part of a document accepts is seen as it stands. -/
theorem reaches_run (ts : List Token) (mode : List Char → Mode) {accepts : Char → Prop}
    (accept : ∀ seen c, accepts c → step ⟨ts, mode seen⟩ c = some ⟨ts, mode (seen ++ [c])⟩)
    {cs : List Char} (all : ∀ c ∈ cs, accepts c) :
    Reaches step ⟨ts, mode []⟩ cs ⟨ts, mode cs⟩ :=
  Reaches.run (fun seen => Scanner.mk ts (mode seen)) accept all []

/-- Literal characters between tags are collected. -/
theorem reaches_text (ts : List Token) {cs : List Char} (literal : ∀ c ∈ cs, isLiteral c) :
    Reaches step ⟨ts, .text []⟩ cs ⟨ts, .text cs⟩ := by
  refine reaches_run ts .text (fun seen c accepted => ?_) literal
  have inside : c ≠ '<' := by
    rintro rfl
    exact Bool.false_ne_true accepted
  rw [step, if_neg inside, if_pos accepted]

/-- Behind a bracket and a name the scanner is in a tag. -/
theorem reaches_opening (ts : List Token) (seen : List Char) (isName : isName name) :
    ∃ s, Reaches step ⟨ts, .text seen⟩ ('<' :: name.toList) s ∧
      s.Inside (ts ++ textTokens seen) name [] := by
  have rest := reaches_run (ts ++ textTokens seen) .name
    (fun seen c accepted => by rw [step, if_pos accepted]) (isNameChar_of_isName isName)
  refine ⟨_, .cons (by rw [step, if_pos rfl]) rest, fun c other => ?_⟩
  rw [step, if_neg (by rw [other]; exact Bool.false_ne_true), if_pos (ne_nil_of_isName isName),
    String.ofList_toList]

/-- An attribute up to its value. -/
def keyChars (key : String) : List Char := ' ' :: (key.toList ++ ['=', '"'])

theorem attributeChars_eq (a : String × String) :
    attributeChars a = keyChars a.1 ++ (a.2.toList.flatMap attributeChar ++ ['"']) := by
  simp [attributeChars, keyChars]

/-- The name of an attribute is read up to the opening quote. -/
theorem reaches_keyChars {s : Scanner} (inside : s.Inside ts name attributes) {key : String}
    (isName : isName key) :
    Reaches step s (keyChars key) ⟨ts, .value name attributes key []⟩ := by
  have seen := reaches_run ts (.key name attributes)
    (fun seen c accepted => by rw [step, if_pos accepted]) (isNameChar_of_isName isName)
  have equals : step ⟨ts, .key name attributes key.toList⟩ '=' =
      some ⟨ts, .equals name attributes key⟩ := by
    rw [step, if_neg (by decide), if_pos ⟨rfl, ne_nil_of_isName isName⟩, String.ofList_toList]
  have space : s.step ' ' = some ⟨ts, .key name attributes []⟩ := inside ' ' (by decide)
  have quote : step ⟨ts, .equals name attributes key⟩ '"' =
      some ⟨ts, .value name attributes key []⟩ := rfl
  exact .cons space (seen.append (.cons equals (.single quote)))

/-- An attribute is read and added to the others. -/
theorem reaches_attribute {s : Scanner} (inside : s.Inside ts name attributes)
    {a : String × String} (isName : isName a.1) (isValue : isValue a.2) :
    Reaches step s (attributeChars a) ⟨ts, .valued name (attributes ++ [a])⟩ := by
  have literal := literal_of_isValue isValue
  have value := reaches_run ts (.value name attributes a.1)
    (fun seen c accepted => by rw [step, if_neg accepted.2.1, if_pos accepted.1]) literal
  have valued : step ⟨ts, .value name attributes a.1 a.2.toList⟩ '"' =
      some ⟨ts, .valued name (attributes ++ [a])⟩ := by
    rw [step, if_pos rfl, String.ofList_toList]
  rw [attributeChars_eq, flatMap_attributeChar isValue]
  exact (reaches_keyChars inside isName).append (value.append (.single valued))

theorem inside_valued : Inside ⟨ts, .valued name attributes⟩ ts name attributes :=
  fun _ _ => rfl

/-- Attributes are read one by one, by induction on them. -/
theorem reaches_attributes {s : Scanner} (inside : s.Inside ts name attributes)
    {more : List (String × String)} (readable : areAttributes more) :
    ∃ t, Reaches step s (more.flatMap attributeChars) t ∧
      t.Inside ts name (attributes ++ more) := by
  induction more generalizing s attributes with
  | nil =>
      rw [List.append_nil]
      exact ⟨s, .nil, inside⟩
  | cons a more ih =>
      rw [areAttributes, List.all_cons, Bool.and_eq_true] at readable
      obtain ⟨first, others⟩ := readable
      obtain ⟨isName, isValue⟩ := Bool.and_eq_true_iff.mp first
      have read := reaches_attribute inside isName isValue
      obtain ⟨t, rest, after⟩ := ih inside_valued others
      rw [List.append_assoc] at after
      exact ⟨t, read.append rest, after⟩

/-- Behind its name and attributes the scanner is still in the tag. -/
theorem reaches_openingChars (ts : List Token) (seen : List Char) (isName : isName name)
    (readable : areAttributes attributes) :
    ∃ s, Reaches step ⟨ts, .text seen⟩ (openingChars name attributes) s ∧
      s.Inside (ts ++ textTokens seen) name attributes := by
  obtain ⟨s, opened, inside⟩ := reaches_opening ts seen isName
  obtain ⟨t, read, after⟩ := reaches_attributes inside readable
  exact ⟨t, opened.append read, after⟩

/-- A closing tag ends the text in front of it. -/
theorem reaches_closingChars (ts : List Token) (seen : List Char) (isName : isName name) :
    Reaches step ⟨ts, .text seen⟩ (closingChars name)
      ⟨ts ++ textTokens seen ++ [.finish name], .text []⟩ := by
  have read := reaches_run (ts ++ textTokens seen) .closing
    (fun seen c accepted => by rw [step, if_pos accepted]) (isNameChar_of_isName isName)
  have closed : step ⟨ts ++ textTokens seen, .closing name.toList⟩ '>' =
      some ⟨ts ++ textTokens seen ++ [.finish name], .text []⟩ := by
    rw [step, if_neg (by decide), if_pos rfl, String.ofList_toList]
  refine .cons (t := ⟨ts ++ textTokens seen, .name []⟩) ?_ (.cons rfl (read.append ?_))
  · rw [step, if_pos rfl]
  · exact .single closed

end Scanner

/-! ## Layout -/

theorem textTokens_of_blank {seen : List Char} (blank : seen.all isBlank) :
    textTokens seen = [] := if_pos blank

theorem textTokens_of_isText {t : String} (h : isText t) : textTokens t.toList = [.text t] := by
  have some := (Bool.and_eq_true_iff.mp h).1
  rw [Bool.not_eq_true'] at some
  rw [textTokens, some, if_neg Bool.false_ne_true, String.ofList_toList]

theorem isLiteral_of_isBlank {c : Char} (blank : isBlank c) : isLiteral c := by
  simp only [isBlank, Bool.or_eq_true, beq_iff_eq] at blank
  rcases blank with (rfl | rfl) | rfl <;> rfl

theorem ne_newline_of_isNameChar {c : Char} (h : isNameChar c) : c ≠ '\n' := by
  rintro rfl
  exact Bool.false_ne_true h

/-- What stands between tags is white space, whatever ends the lines. -/
theorem isBlank_lineBreak (indent : Option Nat) (depth : Nat) (ending : LineEnding) :
    ((lineBreak indent depth).flatMap (endedChar ending)).all isBlank := by
  rw [List.all_flatMap, List.all_eq_true]
  intro c member
  have white : c = '\n' ∨ c = ' ' := by
    unfold lineBreak at member
    cases indent with
    | none => exact absurd member List.not_mem_nil
    | some width =>
        exact (List.mem_cons.mp member).imp_right List.eq_of_mem_replicate
  rcases white with rfl | rfl
  · cases ending <;> decide
  · rfl

/-- Without line feeds no line ending is written. -/
theorem flatMap_endedChar {cs : List Char} (ending : LineEnding) (single : '\n' ∉ cs) :
    cs.flatMap (endedChar ending) = cs := by
  refine flatMap_self fun c member => if_neg ?_
  rintro rfl
  exact single member

theorem newline_notMem_name {name : String} (h : isName name) : '\n' ∉ name.toList :=
  fun member => ne_newline_of_isNameChar (isNameChar_of_isName h _ member) rfl

/-- Writing an attribute escapes quotes and leaves line breaks as they are. -/
theorem newline_notMem_attributeChars {a : String × String} (name : '\n' ∉ a.1.toList)
    (value : '\n' ∉ a.2.toList) : '\n' ∉ attributeChars a := by
  have escaped : '\n' ∉ a.2.toList.flatMap attributeChar := by
    intro inside
    obtain ⟨c, member, inside⟩ := List.mem_flatMap.mp inside
    unfold attributeChar at inside
    by_cases quote : c = '"'
    · rw [if_pos quote] at inside
      revert inside
      decide
    · rw [if_neg quote, List.mem_singleton] at inside
      exact value (inside ▸ member)
  simp [attributeChars, name, escaped]

theorem single_openingChars {name : String} {attributes : List (String × String)}
    (own : '\n' ∉ name.toList)
    (each : ∀ a ∈ attributes, '\n' ∉ a.1.toList ∧ '\n' ∉ a.2.toList) :
    '\n' ∉ openingChars name attributes := by
  have none : '\n' ∉ attributes.flatMap attributeChars := by
    intro inside
    obtain ⟨a, member, inside⟩ := List.mem_flatMap.mp inside
    obtain ⟨name, value⟩ := each a member
    exact newline_notMem_attributeChars name value inside
  simp [openingChars, own, none]

theorem newline_notMem_openingChars {name : String} {attributes : List (String × String)}
    (isName : isName name) (readable : areAttributes attributes) :
    '\n' ∉ openingChars name attributes := by
  refine single_openingChars (newline_notMem_name isName) fun a member => ?_
  obtain ⟨name, value⟩ := Bool.and_eq_true_iff.mp (List.all_eq_true.mp readable a member)
  refine ⟨newline_notMem_name name, fun inside => ?_⟩
  exact (literal_of_isValue value _ inside).2.2 rfl

theorem newline_notMem_closingChars {name : String} (isName : isName name) :
    '\n' ∉ closingChars name := by
  simp [closingChars, newline_notMem_name isName]

/-! ## Documents -/

section

variable {indent : Option Nat} {ending : LineEnding}

open Scanner

/-- A line break is white space to the scanner. -/
theorem reaches_lineBreak (depth : Nat) (ts : List Token) :
    Reaches step ⟨ts, .text []⟩ ((lineBreak indent depth).flatMap (endedChar ending))
      ⟨ts, .text ((lineBreak indent depth).flatMap (endedChar ending))⟩ := by
  have blank := List.all_eq_true.mp (isBlank_lineBreak indent depth ending)
  exact reaches_text ts fun c member => isLiteral_of_isBlank (blank c member)

/-- What stands behind the attributes of an element. -/
def behindChars (indent : Option Nat) (depth : Nat) (name : String) : List Node → List Char
  | [] => ['/', '>']
  | n :: ns =>
    '>' :: (contentChars indent (depth + 1) (n :: ns) ++
      (lineBreak indent depth ++ closingChars name))

theorem Node.chars_element (depth : Nat) (name : String) (attributes : List (String × String))
    (content : List Node) : (Node.element name attributes content).chars indent depth =
      openingChars name attributes ++ behindChars indent depth name content := by
  cases content <;> rfl

/-- Behind its attributes an element is read if its content is. -/
theorem reaches_behind {s : Scanner} {ts : List Token} {name : String}
    {attributes : List (String × String)} {depth : Nat} {content : List Node}
    (isName : isName name) (inside : s.Inside ts name attributes)
    (reads : ∀ ts, Reaches step ⟨ts, .text []⟩
      ((contentChars indent (depth + 1) content).flatMap (endedChar ending))
      ⟨ts ++ tokensOf content, .text []⟩) :
    Reaches step s ((behindChars indent depth name content).flatMap (endedChar ending))
      ⟨ts ++ (Node.element name attributes content).tokens, .text []⟩ := by
  cases content with
  | nil =>
      have slash : s.step '/' = some ⟨ts, .slash name attributes⟩ := inside '/' (by decide)
      exact .cons slash (.single rfl)
  | cons n ns =>
      have finish : s.step '>' = some ⟨ts ++ [.start name attributes], .text []⟩ :=
        inside '>' (by decide)
      -- the line break in front of the closing tag has been seen, but makes no text
      have closed := reaches_closingChars (ts ++ [.start name attributes] ++ tokensOf (n :: ns))
        ((lineBreak indent depth).flatMap (endedChar ending)) isName
      rw [textTokens_of_blank (isBlank_lineBreak indent depth ending), List.append_nil] at closed
      rw [behindChars, List.flatMap_cons, List.flatMap_append, List.flatMap_append,
        flatMap_endedChar ending (newline_notMem_closingChars isName)]
      have whole := Reaches.cons finish
        ((reads (ts ++ [.start name attributes])).append ((reaches_lineBreak depth _).append closed))
      rw [List.append_assoc, List.append_assoc] at whole
      exact whole

mutual

/-- Behind white space the scanner reads a part of a document as its tags and texts. -/
theorem Node.reaches : ∀ (n : Node) (depth : Nat) {seen : List Char} (ts : List Token),
    n.Readable → seen.all isBlank →
      Reaches step ⟨ts, .text seen⟩ ((n.chars indent depth).flatMap (endedChar ending))
        ⟨ts ++ n.tokens, .text []⟩
  | .element name attributes content, depth, seen, ts, ⟨isName, readable, inner⟩, blank => by
    obtain ⟨s, opened, inside⟩ := reaches_openingChars ts seen isName readable
    rw [textTokens_of_blank blank, List.append_nil] at inside
    rw [Node.chars_element, List.flatMap_append,
      flatMap_endedChar ending (newline_notMem_openingChars isName readable)]
    exact opened.append
      (reaches_behind isName inside fun ts => reaches_content content (depth + 1) ts inner)
  | .verbatim name text, depth, seen, ts, ⟨isName, isText⟩, blank => by
    obtain ⟨s, opened, inside⟩ := reaches_openingChars ts seen isName (Eq.refl (areAttributes []))
    rw [textTokens_of_blank blank, List.append_nil] at inside
    have finish : s.step '>' = some ⟨ts ++ [.start name []], .text []⟩ := inside '>' (by decide)
    -- a text fills its element, so all of it is kept
    have literal := literal_of_isText isText
    have read := reaches_text (ts ++ [.start name []]) fun c member => (literal c member).1
    have closed := reaches_closingChars (ts ++ [.start name []]) text.toList isName
    rw [textTokens_of_isText isText] at closed
    have plain : '\n' ∉ text.toList := fun member => (literal _ member).2 rfl
    rw [Node.chars, List.flatMap_append, List.flatMap_cons, List.flatMap_append,
      flatMap_endedChar ending (newline_notMem_openingChars isName rfl),
      flatMap_endedChar ending plain,
      flatMap_endedChar ending (newline_notMem_closingChars isName)]
    have whole := opened.append (.cons finish (read.append closed))
    rw [List.append_assoc, List.append_assoc] at whole
    exact whole
  | .comment _, _, _, _, readable, _ => readable.elim

/-- The content of an element is read node by node, whatever the indent. -/
theorem reaches_content : ∀ (ns : List Node) (depth : Nat) (ts : List Token), AllReadable ns →
    Reaches step ⟨ts, .text []⟩ ((contentChars indent depth ns).flatMap (endedChar ending))
      ⟨ts ++ tokensOf ns, .text []⟩
  | [], depth, ts, _ => by
    rw [tokensOf, List.append_nil]
    exact .nil
  | n :: ns, depth, ts, ⟨first, others⟩ => by
    have read := n.reaches depth ts first (isBlank_lineBreak indent depth ending)
    have rest := reaches_content ns depth (ts ++ n.tokens) others
    rw [contentChars, List.flatMap_append, List.flatMap_append, tokensOf]
    have whole := (reaches_lineBreak depth ts).append (read.append rest)
    rw [List.append_assoc] at whole
    exact whole

end

end

/-- The scanner finds the tags and texts of a readable document in any layout. -/
theorem Node.scan_render {n : Node} (readable : n.Readable) (layout : Layout) :
    scan (n.render layout) = some n.tokens := by
  have blank : List.all [] isBlank := rfl
  have read : Reaches Scanner.step {}
      ((n.chars layout.indent 0).flatMap (endedChar layout.lineEnding)) _ :=
    n.reaches 0 [] readable blank
  unfold scan Node.render
  rw [String.toList_ofList, read]
  exact congrArg some (List.append_nil _)

end PictureMarkup.Markup
