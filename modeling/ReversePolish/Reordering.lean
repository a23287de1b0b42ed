import ReversePolish.Token.Scanner

/-! # From infix to postfix order

Tokens are moved from the order in which an expression is written to the order in which it is
evaluated.  Numbers and constants go to the output at once.  Operators, functions and opening
brackets wait on a stack, its top being the head of the list: an operator leaves the stack when
one arrives that `pops` it, when its bracket closes, or at the end; a function when the bracket of
its arguments closes; and the brackets themselves are dropped.

`Stack.receive` is what one token does to the stack and what it sends to the output.
`Reordering.run` reads tokens one by one and stops at the first error, so an expression is read
only as far as its structure makes sense. -/

namespace ReversePolish

/-- How the brackets and dividers of an expression fail to pair up. -/
inductive StructureError where
  /-- A divider that is not directly within brackets. -/
  | strayDivider (index : Nat)
  /-- A closing bracket without an opening one. -/
  | unmatchedClosing (index : Nat)
  /-- An opening bracket without a closing one. -/
  | unclosedOpening
deriving DecidableEq

namespace StructureError

/-- The error in words. -/
def message : StructureError → String
  | strayDivider index =>
    "argument divider at token " ++ toString index ++ " is outside a bracketed argument list"
  | unmatchedClosing index =>
    "closing bracket at token " ++ toString index ++ " has no matching opening bracket"
  | unclosedOpening => "more opening brackets than closing ones"

end StructureError

namespace PlacedToken

/-- Whether a token is an operator. -/
def isOperator (p : PlacedToken) : Bool :=
  match p.token with
  | .symbol (.operator _) => true
  | _ => false

/-- Whether a token is a function. -/
def isFunction (p : PlacedToken) : Bool :=
  match p.token with
  | .symbol (.function _) => true
  | _ => false

/-- Whether a token is an opening bracket. -/
def isOpening (p : PlacedToken) : Bool := p.token.isOpening

/-- Whether an operator lets the waiting token be applied first. -/
def poppedBy (o : OperatorSymbol) (p : PlacedToken) : Bool :=
  match p.token with
  | .symbol (.operator s) => o.pops s
  | _ => false

end PlacedToken

/-- The tokens that wait, the last one first. -/
abbrev Stack := List PlacedToken

namespace Stack

/-- What a token sends to the output, and the stack that it leaves. -/
structure Move where
  sent : List PlacedToken
  stack : Stack

/-- Sends what waits above the innermost open bracket, if that is all operators. -/
def unwind? (stack : Stack) : Option Move :=
  let left := stack.dropWhile PlacedToken.isOperator
  if left.head?.any PlacedToken.isOpening then
    some ⟨stack.takeWhile PlacedToken.isOperator, left⟩
  else none

/-- Drops the open bracket on top, and sends the function whose arguments it opened. -/
def close (stack : Stack) : Move :=
  let below := stack.tail
  if below.head?.any PlacedToken.isFunction then ⟨below.take 1, below.tail⟩ else ⟨[], below⟩

/-- What a token does when it arrives. -/
def receive (stack : Stack) (p : PlacedToken) : Except StructureError Move :=
  match p.token with
  | .number _ _ => .ok ⟨[p], stack⟩
  | .symbol (.function f) => if f.isConstant then .ok ⟨[p], stack⟩ else .ok ⟨[], p :: stack⟩
  | .symbol (.opening _) => .ok ⟨[], p :: stack⟩
  | .symbol (.divider _) =>
    match stack.unwind? with
    | some move => .ok move
    | none => .error (.strayDivider p.index)
  | .symbol (.operator o) =>
    .ok ⟨stack.takeWhile (PlacedToken.poppedBy o), p :: stack.dropWhile (PlacedToken.poppedBy o)⟩
  | .symbol (.closing _) =>
    match stack.unwind? with
    | some move =>
      let closed := move.stack.close
      .ok ⟨move.sent ++ closed.sent, closed.stack⟩
    | none => .error (.unmatchedClosing p.index)

end Stack

/-! ### Whole expressions -/

/-- Why an expression cannot be brought into postfix order. -/
inductive ReorderingError where
  | scan (e : ScanError)
  | structural (e : StructureError)
deriving DecidableEq

/-- What has been read of an expression, what waits, and what has been sent. -/
structure Reordering where
  read : Array Token
  stack : Stack
  output : Array PlacedToken

namespace Reordering

/-- Nothing has been read. -/
def empty : Reordering := ⟨#[], [], #[]⟩

/-- One more token has been read. -/
def push (r : Reordering) (token : Token) : Except StructureError Reordering :=
  match r.stack.receive ⟨token, r.read.size⟩ with
  | .ok move => .ok ⟨r.read.push token, move.stack, r.output ++ move.sent⟩
  | .error e => .error e

/-- All tokens have been read: what waits is sent, and may hold no open bracket. -/
def finish (r : Reordering) : Except StructureError Reordering :=
  if r.stack.any PlacedToken.isOpening then .error .unclosedOpening
  else .ok { r with stack := [], output := r.output ++ r.stack }

/-- Reads what is left of an expression. -/
def run (table : SymbolTable) (s : Scanner) (r : Reordering) : Except ReorderingError Reordering :=
  if _more : s.skipBlanks.rest = [] then .ok r
  else match _h : s.read table with
    | (.error e, _) => .error (.scan e)
    | (.ok token, after) =>
      match r.push token with
      | .error e => .error (.structural e)
      | .ok r => run table after r
termination_by s.rest.length
decreasing_by
  have := Scanner.length_rest_read_lt table _more
  rwa [_h] at this

/-- Reads a whole expression and brings it into postfix order. -/
def ofExpression (table : SymbolTable) (expression : String) : Except ReorderingError Reordering :=
  match run table (Scanner.ofText expression) empty with
  | .error e => .error e
  | .ok r =>
    match r.finish with
    | .error e => .error (.structural e)
    | .ok r => .ok r

/-- The output, without the places of its tokens. -/
def postorder (r : Reordering) : List Token := r.output.toList.map PlacedToken.token

end Reordering

end ReversePolish
