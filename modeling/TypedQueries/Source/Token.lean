import TypedQueries.Text.Basic

/-!
# Tokens of the scanned language

A source file is read as a list of tokens. Words, literals, symbols and keywords stand for
themselves; the end of a logical line and a change of indentation are tokens of their own.
-/

namespace TypedQueries.Source

inductive Bracket where
  | round
  | square
  | curly
  /-- The brackets around a placeholder of a formatted string. -/
  | field
deriving DecidableEq

inductive Symbol where
  | opening (b : Bracket)
  | closing (b : Bracket)
  | comma
  | colon
  | semicolon
  | dot
  | ellipsis
  | arrow
  | assign
  /-- An operator joined with an equals sign, as in `+=`. -/
  | augmented
  /-- The sign of an assignment inside an expression. -/
  | walrus
  | plus
  | minus
  | star
  | doubleStar
  | at
  | tilde
  | bar
  | caret
  | ampersand
  | shift
  | slash
  /-- Floor division and remainder. -/
  | division
  | comparison
deriving DecidableEq

inductive Keyword where
  | false_
  | none_
  | true_
  | and_
  | as_
  | assert_
  | async_
  | await_
  | break_
  | class_
  | continue_
  | def_
  | del_
  | elif_
  | else_
  | except_
  | finally_
  | for_
  | from_
  | global_
  | if_
  | import_
  | in_
  | is_
  | lambda_
  | nonlocal_
  | not_
  | or_
  | pass_
  | raise_
  | return_
  | try_
  | while_
  | with_
  | yield_
deriving DecidableEq

namespace Keyword

def spelling : Keyword → Text
  | false_ => "False"
  | none_ => "None"
  | true_ => "True"
  | and_ => "and"
  | as_ => "as"
  | assert_ => "assert"
  | async_ => "async"
  | await_ => "await"
  | break_ => "break"
  | class_ => "class"
  | continue_ => "continue"
  | def_ => "def"
  | del_ => "del"
  | elif_ => "elif"
  | else_ => "else"
  | except_ => "except"
  | finally_ => "finally"
  | for_ => "for"
  | from_ => "from"
  | global_ => "global"
  | if_ => "if"
  | import_ => "import"
  | in_ => "in"
  | is_ => "is"
  | lambda_ => "lambda"
  | nonlocal_ => "nonlocal"
  | not_ => "not"
  | or_ => "or"
  | pass_ => "pass"
  | raise_ => "raise"
  | return_ => "return"
  | try_ => "try"
  | while_ => "while"
  | with_ => "with"
  | yield_ => "yield"

def all : List Keyword :=
  [.false_, .none_, .true_, .and_, .as_, .assert_, .async_, .await_, .break_, .class_, .continue_,
   .def_, .del_, .elif_, .else_, .except_, .finally_, .for_, .from_, .global_, .if_, .import_,
   .in_, .is_, .lambda_, .nonlocal_, .not_, .or_, .pass_, .raise_, .return_, .try_, .while_,
   .with_, .yield_]

def ofWord? (w : Text) : Option Keyword := all.find? fun k => k.spelling = w

end Keyword

inductive TokenKind where
  /-- A name. -/
  | word (w : Text)
  | keyword (k : Keyword)
  | symbol (s : Symbol)
  | number (imaginary : Bool)
  /-- A string literal and its value. -/
  | text (value : Text)
  /-- A literal of bytes. -/
  | bytes
  /-- A formatted string. Its placeholders follow, each between brackets of their own. -/
  | formatted
  /-- The end of a logical line. -/
  | newline
  | indent
  | dedent
deriving DecidableEq

/-- A place in a file. Lines count from one, and the bytes of a line from zero. -/
structure Position where
  line : Nat
  column : Nat
deriving DecidableEq

def Position.after (p : Position) (c : Char) : Position :=
  if c = '\n' then ⟨p.line + 1, 0⟩ else ⟨p.line, p.column + c.utf8Size⟩

def Position.afterText (p : Position) (t : Text) : Position := t.foldl Position.after p

structure Token where
  kind : TokenKind
  /-- Where its first character stands. -/
  start : Position
  /-- The line on which it ends. -/
  lastLine : Nat
deriving DecidableEq

end TypedQueries.Source
