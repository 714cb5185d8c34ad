import DeskCalculator.Lexeme
import DeskCalculator.Text.Blank
import DeskCalculator.Traced

/-!
# From text to tokens

`Token.ofSource` reads the tokens of an expression.  The first literal that is no number ends the
reading; characters that mean nothing are left out, and those among them that show are noted.
-/

namespace DeskCalculator
namespace Token

/-- A literal as it stands in the text. -/
def literalText (negative : Bool) (run : List Char) : String :=
  String.ofList (Layout.sign negative ++ run)

/-- The tokens of a list of lexemes, up to the first literal that is no number. -/
def ofLexemes : List Lexeme → Traced (Except Cause (List Token))
  | [] => return .ok []
  | .literal negative run :: rest =>
      match Decimal.ofNumeral? run with
      | none => return .error (.invalidNumber (literalText negative run))
      | some d => do
          let tokens ← ofLexemes rest
          return tokens.map (.number (d.toFloat negative) :: ·)
  | .operator op :: rest => do
      let tokens ← ofLexemes rest
      return tokens.map (ofOperator op :: ·)
  | .opening :: rest => do
      let tokens ← ofLexemes rest
      return tokens.map (.opening :: ·)
  | .closing :: rest => do
      let tokens ← ofLexemes rest
      return tokens.map (.closing :: ·)
  | .ignored c :: rest => do
      unless Text.isBlank c do
        Traced.note (.ignoredCharacter c)
      ofLexemes rest

/-- The tokens of a text; a failure keeps the text. -/
def ofSource (source : String) : Traced (Except Failure (List Token)) := do
  match ← ofLexemes (Lexeme.scan source.toList) with
  | .error cause => return .error (cause.failure (some source))
  | .ok tokens =>
      Traced.note (.tokenized source tokens)
      return .ok tokens

end Token
end DeskCalculator
