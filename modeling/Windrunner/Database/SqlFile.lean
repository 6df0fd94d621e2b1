import Windrunner.Database.AutoUpdater

/-!
# Files of SQL statements

What an update file is: statements with a semicolon after each, written with strings, comments and other
text (`SqlFile`). `SqlFile.render` is its text, and `SqlFile.queries` are the statements as they should
reach the database.

* `SqlFile.Lexed`: the text can only be read in this way.
* `SqlFile.Tame`: nothing stands in it that the splitter of the updater takes for something else.
-/

namespace Windrunner

open Lib

inductive SqlQuote where
  | single
  | double
  deriving DecidableEq, Repr

def SqlQuote.char : SqlQuote → Char
  | .single => '\''
  | .double => '"'

/-- A part of a string -/
inductive StringPart (q : SqlQuote) where
  | plain (c : Char) (h : c ≠ q.char ∧ c ≠ '\\')
  | escape (c : Char)
  | doubled

namespace StringPart

variable {q : SqlQuote}

def render : StringPart q → Text
  | plain c _ => [c]
  | escape c => ['\\', c]
  | doubled => [q.char, q.char]

/-- After an escaped backslash there is no quote. -/
def Apart (rest : Text) : StringPart q → Prop
  | escape c => c = '\\' → rest.head? ≠ some q.char
  | _ => True

instance (rest : Text) (p : StringPart q) : Decidable (p.Apart rest) := by
  unfold Apart
  cases p <;> infer_instance

end StringPart

inductive LineEnd where
  | lineFeed
  | carriageReturn
  deriving DecidableEq, Repr

def LineEnd.char : LineEnd → Char
  | .lineFeed => '\n'
  | .carriageReturn => '\r'

inductive SqlPiece where
  /-- A character that is in no string and no comment -/
  | text (c : Char) (h : c ≠ '\'' ∧ c ≠ '"' ∧ c ≠ ';')
  | string (q : SqlQuote) (parts : List (StringPart q))
  | lineComment (body : Text) (h : '\n' ∉ body ∧ '\r' ∉ body) (lineEnd : LineEnd)
  | blockComment (body : Text) (h : ¬ ['*', '/'] <:+: body)

namespace SqlPiece

def render : SqlPiece → Text
  | text c _ => [c]
  | string q parts => q.char :: (parts.flatMap (·.render) ++ [q.char])
  | lineComment body _ lineEnd => '-' :: '-' :: (body ++ [lineEnd.char])
  | blockComment body _ => '/' :: '*' :: (body ++ ['*', '/'])

/-- A line feed becomes a blank, and a carriage return nothing. -/
def lineBreak (c : Char) : Text := if c = '\n' then [' '] else if c = '\r' then [] else [c]

/-- What is left of a piece without the comments, and without the line breaks outside strings -/
def kept : SqlPiece → Text
  | text c _ => lineBreak c
  | string q parts => (string q parts).render
  | lineComment _ _ lineEnd => lineBreak lineEnd.char
  | blockComment body _ => (body.filter (· = '\n')).map fun _ => ' '

/-- What may stand after the last statement -/
def IsGap : SqlPiece → Prop
  | text c _ => c ∈ ['\t', '\r', '\n', ' ']
  | string _ _ => False
  | _ => True

/-- A comment begins, up to the end of the line. -/
def beginsComment : Text → Bool
  | '-' :: '-' :: rest => rest.head?.all isSpace
  | _ => false

/-- A piece that is not read as another one before what follows it -/
def Lexed (rest : Text) : SqlPiece → Prop
  | text c _ => (c = '/' → rest.head? ≠ some '*') ∧ beginsComment (c :: rest) = false
  | string q _ => rest.head? ≠ some q.char
  | lineComment body _ _ => body.head?.all isSpace = true
  | blockComment _ _ => True

/-- A piece that the splitter does not take for another one before what follows it -/
def Tame (rest : Text) : SqlPiece → Prop
  | text c _ => c ≠ '\x00' ∧ (c = '/' → rest.head? ≠ some '*') ∧ (c = '-' → rest.head? ≠ some '-')
  | string q parts =>
    (∀ c ∈ parts.flatMap (·.render), c ≠ '\n' ∧ c ≠ '\r' ∧ c ≠ '\x00') ∧
      Along StringPart.render StringPart.Apart parts [q.char]
  | lineComment body _ _ => ¬ ['/', '*'] <:+: body
  | blockComment body _ => body.head? ≠ some '/'

instance : DecidablePred IsGap := fun p => by
  unfold IsGap
  cases p <;> infer_instance

instance (rest : Text) (p : SqlPiece) : Decidable (p.Lexed rest) := by
  unfold Lexed
  cases p <;> infer_instance

instance (rest : Text) (p : SqlPiece) : Decidable (p.Tame rest) := by
  unfold Tame
  cases p
  case string => exact @instDecidableAnd _ _ (List.decidableBAll _ _) inferInstance
  all_goals infer_instance

end SqlPiece

structure SqlFile where
  statements : List (List SqlPiece)
  trailer : List SqlPiece := []
  /-- A line comment that ends with the file -/
  lastComment : Option Text := none
  trailer_gap : ∀ p ∈ trailer, p.IsGap := by simp
  lastComment_line : ∀ body ∈ lastComment, '\n' ∉ body ∧ '\r' ∉ body := by simp

namespace SqlFile

def renderStatement (pieces : List SqlPiece) : Text := pieces.flatMap (·.render) ++ [';']

def renderComment (f : SqlFile) : Text := f.lastComment.elim [] ("--".toList ++ ·)

/-- The text of the file -/
def render (f : SqlFile) : Text :=
  f.statements.flatMap renderStatement ++ (f.trailer.flatMap (·.render) ++ f.renderComment)

def query (pieces : List SqlPiece) : Text := pieces.flatMap (·.kept) ++ [';']

/-- The statements in order -/
def queries (f : SqlFile) : List Text := f.statements.map query

/-- The text can only be read in this way. -/
def Lexed (f : SqlFile) : Prop :=
  (∀ pieces ∈ f.statements, Along SqlPiece.render SqlPiece.Lexed pieces [';']) ∧
  Along SqlPiece.render SqlPiece.Lexed f.trailer f.renderComment ∧
  ∀ body ∈ f.lastComment, body.head?.all isSpace = true

/-- The splitter takes nothing in the file for something else. -/
def Tame (f : SqlFile) : Prop :=
  (∀ pieces ∈ f.statements, Along SqlPiece.render SqlPiece.Tame pieces [';']) ∧
  Along SqlPiece.render SqlPiece.Tame f.trailer f.renderComment ∧
  ∀ body ∈ f.lastComment, ¬ ['/', '*'] <:+: body

instance (f : SqlFile) : Decidable f.Lexed := inferInstanceAs (Decidable (_ ∧ _ ∧ _))

instance (f : SqlFile) : Decidable f.Tame := inferInstanceAs (Decidable (_ ∧ _ ∧ _))

end SqlFile

end Windrunner
