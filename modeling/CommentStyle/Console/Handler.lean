import CommentStyle.Console.Literal.Constant
import CommentStyle.Text.Digits
import CommentStyle.Text.Quoted

/-!
# Handlers

A tag whose name begins with an at sign is handled rather than styled. Behind an equals sign it may name its
handler, give it parameters in parentheses, or both; what is neither has to be a literal as a whole.
-/

namespace CommentStyle.Console

/-- Why a handler is not well written. -/
inductive HandlerFault where
  /-- The part that has to be a literal is no expression. -/
  | notExpression (checked parameters reason : String)
  | notLiteral (parameters reason : String)
deriving DecidableEq, Repr

def HandlerFault.message : HandlerFault → String
  | notExpression checked parameters reason =>
    "error parsing " ++ Text.quoted checked ++ " in " ++ Text.quoted parameters ++ "; " ++ reason
  | notLiteral parameters reason => "error parsing " ++ Text.quoted parameters ++ "; " ++ reason

namespace Handler

def isNameChar (c : Char) : Bool := c == '.' || Text.isWordChar c

/-- A part in parentheses, on one line. -/
def isParenthesised (cs : List Char) : Bool :=
  cs.head? = some '(' && cs.getLast? = some ')' && !(cs.contains '\n')

/-- The part that has to be a literal. -/
def literalPart (cs : List Char) : List Char :=
  match cs.dropWhile isNameChar with
  | [] => ['(', ')']
  | rest => if isParenthesised rest then rest else cs

/-- Checks the parameters of a handler. -/
def check (parameters : List Char) : Except HandlerFault Unit :=
  let checked := literalPart (Text.trim parameters)
  let written := String.ofList parameters
  match Literal.check checked with
  | .ok () => .ok ()
  | .error (.notExpression reason) => .error (.notExpression (String.ofList checked) written reason)
  | .error (.constant f) => .error (.notLiteral written f.message)
  | .error .null => .error (.notLiteral written "source code string cannot contain null bytes")

end Handler

end CommentStyle.Console
