import NodeAtlas.Json.Tree

/-!
The grammar of JSON texts with comments between their tokens. A text is given by its derivation, which
says how it is written and which tree it stands for; comments are no part of that tree.
-/

namespace NodeAtlas.Json.Grammar

open Text

/-- White space or a comment. A line feed ends a line comment. -/
inductive Filler where
  | blank (c : Char) (h : c = ' ' ∨ c = '\t' ∨ c = '\n' ∨ c = '\r')
  | block (body : List Char) (h : ¬ ['*', '/'] <:+: body)
  | line (body : List Char) (h : '\n' ∉ body)

namespace Filler

def text : Filler → List Char
  | blank c _ => [c]
  | block body _ => '/' :: '*' :: (body ++ ['*', '/'])
  | line body _ => '/' :: '/' :: (body ++ ['\n'])

def IsBlank : Filler → Prop
  | blank _ _ => True
  | _ => False

end Filler

/-- What may stand between two tokens. -/
structure Spacing where
  fillers : List Filler

namespace Spacing

def text (g : Spacing) : List Char := g.fillers.flatMap Filler.text

/-- Without comments. -/
def Plain (g : Spacing) : Prop := ∀ f ∈ g.fillers, f.IsBlank

end Spacing

def IsDigit (c : Char) : Prop := '0' ≤ c ∧ c ≤ '9'

structure Digits where
  chars : List Char
  ne_nil : chars ≠ []
  isDigit : ∀ c ∈ chars, IsDigit c

structure Exponent where
  mark : Char
  sign : Option Char
  digits : Digits
  mark_eq : mark = 'e' ∨ mark = 'E'
  sign_eq : ∀ c ∈ sign, c = '+' ∨ c = '-'

def Exponent.text (e : Exponent) : List Char := e.mark :: e.sign.toList ++ e.digits.chars

structure Numeral where
  negative : Bool
  whole : Digits
  fraction : Option Digits
  exponent : Option Exponent
  no_leading_zero : whole.chars.head? = some '0' → whole.chars = ['0']

namespace Numeral

def sign (n : Numeral) : List Char := if n.negative then ['-'] else []

def fractionText (n : Numeral) : List Char :=
  match n.fraction with
  | none => []
  | some ds => '.' :: ds.chars

def exponentText (n : Numeral) : List Char :=
  match n.exponent with
  | none => []
  | some e => e.text

def text (n : Numeral) : List Char := n.sign ++ n.whole.chars ++ n.fractionText ++ n.exponentText

end Numeral

def IsHexDigit (c : Char) : Prop :=
  IsDigit c ∨ ('a' ≤ c ∧ c ≤ 'f') ∨ ('A' ≤ c ∧ c ≤ 'F')

inductive Escape where
  | letter (c : Char) (h : c ∈ ['"', '\\', '/', 'b', 'f', 'n', 'r', 't'])
  | code (digits : List Char) (hlen : digits.length = 4) (hhex : ∀ c ∈ digits, IsHexDigit c)

def Escape.text : Escape → List Char
  | letter c _ => ['\\', c]
  | code digits _ _ => '\\' :: 'u' :: digits

/-- Characters of a string that stand for themselves. -/
structure Run where
  chars : List Char
  plain : ∀ c ∈ chars, 0x20 ≤ c.toNat ∧ c ≠ '"' ∧ c ≠ '\\'

/-- A string: a run, and after every escape sequence another one. Runs may be empty. -/
structure Quoted where
  first : Run
  more : List (Escape × Run)

/-- A node without children for a text at an offset. -/
def leafAt (k : NodeKind) (o : Nat) (w : List Char) : Tree := .node k o (o + byteLength w) []

def tokenAt (c : Char) (o : Nat) : Tree := leafAt (.token c) o [c]

/-- A run has a node when it is not empty. -/
def Run.trees (o : Nat) (r : Run) : List Tree :=
  if r.chars = [] then [] else [leafAt .stringContent o r.chars]

namespace Quoted

def moreText : List (Escape × Run) → List Char
  | [] => []
  | (e, r) :: rest => e.text ++ r.chars ++ moreText rest

def moreTrees (o : Nat) : List (Escape × Run) → List Tree
  | [] => []
  | (e, r) :: rest =>
    leafAt .escapeSequence o e.text :: r.trees (o + byteLength e.text) ++
      moreTrees (o + byteLength e.text + byteLength r.chars) rest

def inside (q : Quoted) : List Char := q.first.chars ++ moreText q.more

def text (q : Quoted) : List Char := '"' :: q.inside ++ ['"']

def tree (o : Nat) (q : Quoted) : Tree :=
  .node .string o (o + byteLength q.text) <|
    tokenAt '"' o :: q.first.trees (o + 1) ++
      moreTrees (o + 1 + byteLength q.first.chars) q.more ++
      [tokenAt '"' (o + 1 + byteLength q.inside)]

end Quoted

inductive Literal where
  | true | false | null

namespace Literal

def text : Literal → List Char
  | true => ['t', 'r', 'u', 'e']
  | false => ['f', 'a', 'l', 's', 'e']
  | null => ['n', 'u', 'l', 'l']

def kind : Literal → NodeKind
  | true => .true
  | false => .false
  | null => .null

end Literal

/-- The kinds of containers. -/
inductive Bracket where
  | object | array

namespace Bracket

def opening : Bracket → Char
  | object => '\x7b'
  | array => '['

def closing : Bracket → Char
  | object => '\x7d'
  | array => ']'

def kind : Bracket → NodeKind
  | object => .object
  | array => .array

end Bracket

/-- What stands before the value of an item: in an object its key and a colon. -/
inductive Label : Bracket → Type where
  | none : Label .array
  | key (name : Quoted) (before after : Spacing) : Label .object

namespace Label

def text {b : Bracket} : Label b → List Char
  | none => []
  | key name before after => name.text ++ before.text ++ ':' :: after.text

/-- The tree of an item with a value of the given text and tree: a pair goes from its key to the
end of its value. -/
def wrap {b : Bracket} (l : Label b) (o : Nat) (w : List Char) (value : Nat → Tree) : Tree :=
  match l with
  | none => value o
  | key name before after =>
    .node .pair o (o + byteLength (key name before after).text + byteLength w)
      [name.tree o, tokenAt ':' (o + byteLength name.text + byteLength before.text),
        value (o + byteLength (key name before after).text)]

def Plain {b : Bracket} : Label b → Prop
  | none => True
  | key _ before after => before.Plain ∧ after.Plain

end Label

mutual

/-- A value as it is written. -/
inductive Phrase where
  | literal (w : Literal)
  | number (n : Numeral)
  | string (q : Quoted)
  | empty (b : Bracket) (inside : Spacing)
  | container (b : Bracket) (items : Items b)

/-- The items of a container, with commas between them. -/
inductive Items : Bracket → Type where
  | last {b : Bracket} (before : Spacing) (l : Label b) (v : Phrase) (after : Spacing) : Items b
  | cons {b : Bracket} (before : Spacing) (l : Label b) (v : Phrase) (after : Spacing)
    (more : Items b) : Items b

end

mutual

def Phrase.text : Phrase → List Char
  | .literal w => w.text
  | .number n => n.text
  | .string q => q.text
  | .empty b inside => b.opening :: (inside.text ++ [b.closing])
  | .container b items => b.opening :: (items.text ++ [b.closing])

def Items.text {b : Bracket} : Items b → List Char
  | .last before l v after => before.text ++ (l.text ++ (v.text ++ after.text))
  | .cons before l v after more =>
    before.text ++ (l.text ++ (v.text ++ (after.text ++ ',' :: more.text)))

end

mutual

/-- The tree of a value at an offset inside so many containers. A container inside 256 others is an
error node without children. -/
def Phrase.tree (depth o : Nat) : Phrase → Tree
  | .literal w => leafAt w.kind o w.text
  | .number n => leafAt .number o n.text
  | .string q => q.tree o
  | .empty b inside =>
    let text := (Phrase.empty b inside).text
    if depth = 256 then leafAt .error o text
    else .node b.kind o (o + byteLength text)
      [tokenAt b.opening o, tokenAt b.closing (o + 1 + byteLength inside.text)]
  | .container b items =>
    let text := (Phrase.container b items).text
    if depth = 256 then leafAt .error o text
    else .node b.kind o (o + byteLength text) <|
      tokenAt b.opening o :: items.trees (depth + 1) (o + 1) ++
        [tokenAt b.closing (o + 1 + byteLength items.text)]

def Items.trees (depth o : Nat) {b : Bracket} : Items b → List Tree
  | .last before l v _ =>
    [l.wrap (o + byteLength before.text) v.text fun o => v.tree depth o]
  | .cons before l v after more =>
    let stop := o + byteLength before.text + byteLength l.text + byteLength v.text +
      byteLength after.text
    l.wrap (o + byteLength before.text) v.text (fun o => v.tree depth o) :: tokenAt ',' stop ::
      more.trees depth (stop + 1)

end

mutual

/-- Without comments. -/
def Phrase.Plain : Phrase → Prop
  | .empty _ inside => inside.Plain
  | .container _ items => items.Plain
  | _ => True

def Items.Plain {b : Bracket} : Items b → Prop
  | .last before l v after => before.Plain ∧ l.Plain ∧ v.Plain ∧ after.Plain
  | .cons before l v after more =>
    before.Plain ∧ l.Plain ∧ v.Plain ∧ after.Plain ∧ more.Plain

end

mutual

/-- Inside so many containers, a value has no comment in a container inside 256 or more others. -/
def Phrase.PlainBelow (depth : Nat) : Phrase → Prop
  | .empty _ inside => 256 ≤ depth → inside.Plain
  | .container _ items => if depth < 256 then items.PlainBelow (depth + 1) else items.Plain
  | _ => True

def Items.PlainBelow (depth : Nat) {b : Bracket} : Items b → Prop
  | .last _ _ v _ => v.PlainBelow depth
  | .cons _ _ v _ more => v.PlainBelow depth ∧ more.PlainBelow depth

end

/-- A value with spacing around it. The last line comment may run to the end of the text. -/
structure Document where
  before : Spacing
  value : Phrase
  after : Spacing
  open? : Option { body : List Char // '\n' ∉ body }

namespace Document

def openText (d : Document) : List Char :=
  match d.open? with
  | none => []
  | some body => '/' :: '/' :: body.val

def text (d : Document) : List Char :=
  d.before.text ++ (d.value.text ++ (d.after.text ++ d.openText))

def tree (d : Document) : Tree :=
  .node .document 0 (byteLength d.text) [d.value.tree 0 (byteLength d.before.text)]

end Document

end NodeAtlas.Json.Grammar
