import NpsSdk.Lib.SortedJson
import NpsSdk.Lib.StringToNumber
import NpsSdk.Nop.InputMapper

/-!
# Conditions

`nop/condition-evaluator.ts`: the tokenizer, and the parser, which evaluates what it reads.  The parser stops
after the first expression.
-/

namespace NpsSdk.Nop

open NpsSdk.Lib

/-! ### Tokens -/

structure NopConditionError where
  message : String
  deriving DecidableEq

def NopConditionError.of (message expression : String) : NopConditionError :=
  ⟨s!"{message}  Expression: «{expression}»"⟩

inductive ComparisonOp
  | gt | gte | lt | lte | eq | neq
  deriving DecidableEq

/-- A token.  The end of the input is the end of the list. -/
inductive Token
  | dollarPath (raw : String)
  | number (raw : String)
  | string (raw : String)
  | true | false | null
  | op (op : ComparisonOp)
  | and | or | not
  | lParen | rParen
  deriving DecidableEq

def ComparisonOp.raw : ComparisonOp → String
  | .gt => ">"
  | .gte => ">="
  | .lt => "<"
  | .lte => "<="
  | .eq => "=="
  | .neq => "!="

def Token.raw : Token → String
  | .dollarPath raw | .number raw | .string raw => raw
  | .true => "true"
  | .false => "false"
  | .null => "null"
  | .op o => o.raw
  | .and => "&&"
  | .or => "||"
  | .not => "!"
  | .lParen => "("
  | .rParen => ")"

/-! ### The tokenizer -/

def isLetter (c : Char) : Bool := c.isAlpha

def isLetterOrDigit (c : Char) : Bool := c.isAlpha || c.isDigit

/-- What a path goes on with. -/
def isPathChar (c : Char) : Bool := isLetterOrDigit c || c == '_' || c == '.' || c == '$'

/-- What a number goes on with. -/
def isNumberPart (c : Char) : Bool := c.isDigit || c == '.'

def twoCharToken : Char → Char → Option Token
  | '>', '=' => some (.op .gte)
  | '<', '=' => some (.op .lte)
  | '=', '=' => some (.op .eq)
  | '!', '=' => some (.op .neq)
  | '&', '&' => some .and
  | '|', '|' => some .or
  | _, _ => none

def oneCharToken : Char → Option Token
  | '>' => some (.op .gt)
  | '<' => some (.op .lt)
  | '!' => some .not
  | '(' => some .lParen
  | ')' => some .rParen
  | _ => none

def keyword : String → Option Token
  | "true" => some .true
  | "false" => some .false
  | "null" => some .null
  | _ => none

/-- The operator, the keyword or the error at the character `c`, after which `cs` is left. -/
def symbolAt (input : String) (c : Char) (cs : List Char) : Except NopConditionError (Token × List Char) :=
  match cs.head?.bind (twoCharToken c) with
  | some t => .ok (t, cs.tail)
  | none =>
  match oneCharToken c with
  | some t => .ok (t, cs)
  | none =>
    if isLetter c then
      let kw := String.ofList ((c :: cs).takeWhile isLetterOrDigit)
      match keyword kw with
      | some t => .ok (t, (c :: cs).dropWhile isLetterOrDigit)
      | none => .error (.of s!"Unknown token '{kw}'." input)
    else
      let position := utf16Length input - utf16Length (String.ofList (c :: cs))
      .error (.of s!"Unexpected character '{c}' at position {position}." input)

/-- The token at the character `c`, after which `cs` is left. -/
def tokenAt (input : String) (c : Char) (cs : List Char) : Except NopConditionError (Token × List Char) :=
  if c = '$' ∧ cs.head? = some '.' then
    .ok (.dollarPath (String.ofList ((c :: cs).takeWhile isPathChar)), (c :: cs).dropWhile isPathChar)
  else if c = '"' then
    -- the closing quote is skipped, whether there is one or not
    .ok (.string (String.ofList (cs.takeWhile fun d => d ≠ '"')), (cs.dropWhile fun d => d ≠ '"').tail)
  else if c.isDigit ∨ c = '-' ∧ cs.head?.any Char.isDigit then
    .ok (.number (String.ofList (c :: cs.takeWhile isNumberPart)), cs.dropWhile isNumberPart)
  else symbolAt input c cs

/-- The tokens of what is left of the input.  Each turn passes a character, so `fuel` is its length. -/
def tokenizeFrom (input : String) : ℕ → List Char → Except NopConditionError (List Token)
  | 0, _ | _, [] => .ok []
  | fuel + 1, c :: cs =>
    if isJsSpace c then tokenizeFrom input fuel cs
    else
      match tokenAt input c cs with
      | .error e => .error e
      | .ok (t, rest) => (tokenizeFrom input fuel rest).map (t :: ·)

def tokenize (input : String) : Except NopConditionError (List Token) :=
  tokenizeFrom input input.toList.length input.toList

/-! ### Values -/

/-- A value under comparison. -/
inductive CondValue
  | null
  | bool (b : Bool)
  | number (n : JsDouble)
  | string (s : String)
  /-- A method every object inherits. -/
  | builtin (name : String)
  deriving DecidableEq

namespace CondValue

def ofJson : Json → CondValue
  | .null => .null
  | .bool b => .bool b
  | .num n => .number (JsNum.finite n).double
  | .str s => .string s
  | v => .string (String.ofList v.text)

/-- What a path leads to, as a value. -/
def ofResolved : Resolved → CondValue
  | .undefined => .null
  | .json v => ofJson v
  | .context members =>
    -- a member that is `undefined` is not written
    ofJson (.obj (members.filterMap fun e => e.2.map fun v => (e.1, v)))
  | .objectPrototype => ofJson (.obj [])
  | .builtin name => .builtin name

def asTruthy : CondValue → Bool
  | .null => false
  | .bool b => b
  | .number n => !n.eq 0
  | .string s => s ≠ ""
  | .builtin _ => true

/-- `a === b`, where nothing else equals `null`. -/
def eq : CondValue → CondValue → Bool
  | .number a, .number b => a.eq b
  | a, b => a = b

def compare (a : CondValue) (op : ComparisonOp) (b : CondValue) : Bool :=
  match op, a, b with
  | .eq, _, _ => a.eq b
  | .neq, _, _ => !a.eq b
  | .gt, .number a, .number b => b < a
  | .gte, .number a, .number b => b ≤ a
  | .lt, .number a, .number b => a < b
  | .lte, .number a, .number b => a ≤ b
  | .gt, .string a, .string b => ¬ nameLe a b
  | .gte, .string a, .string b => nameLe b a
  | .lt, .string a, .string b => ¬ nameLe b a
  | .lte, .string a, .string b => nameLe a b
  | _, _, _ => false

end CondValue

/-! ### The parser -/

/-- What is thrown while a condition is parsed. -/
inductive CondThrown
  | condition (e : NopConditionError)
  | mapping (e : NopMappingError)
  /-- No turn is left: this is never reached. -/
  | outOfFuel

/-- The value that is read, and what is left after it. -/
def parseValue (context : Context) : List Token → Except CondThrown (CondValue × List Token)
  | .dollarPath raw :: rest =>
    match resolvePath raw context with
    | .error e => .error (.mapping e)
    | .ok v => .ok (.ofResolved v, rest)
  | .number raw :: rest => .ok (.number (stringToNumber raw), rest)
  | .string raw :: rest => .ok (.string raw, rest)
  | .true :: rest => .ok (.bool true, rest)
  | .false :: rest => .ok (.bool false, rest)
  | .null :: rest => .ok (.null, rest)
  | tokens =>
    let raw := (tokens.head?.map Token.raw).getD ""
    .error (.condition (.of s!"Expected a value, got '{raw}'." ""))

section

variable (context : Context)

mutual

/-- `or_expr := and_expr ('||' and_expr)*`. -/
def parseOrExpr : ℕ → List Token → Except CondThrown (Bool × List Token)
  | 0, _ => .error .outOfFuel
  | fuel + 1, tokens =>
    match parseAndExpr fuel tokens with
    | .error e => .error e
    | .ok (left, rest) => parseOrTail fuel left rest

/-- The loop of `parseOrExpr`. -/
def parseOrTail : ℕ → Bool → List Token → Except CondThrown (Bool × List Token)
  | 0, _, _ => .error .outOfFuel
  | fuel + 1, left, .or :: tokens =>
    match parseAndExpr fuel tokens with
    | .error e => .error e
    | .ok (right, rest) => parseOrTail fuel (left || right) rest
  | _ + 1, left, tokens => .ok (left, tokens)

/-- `and_expr := not_expr ('&&' not_expr)*`. -/
def parseAndExpr : ℕ → List Token → Except CondThrown (Bool × List Token)
  | 0, _ => .error .outOfFuel
  | fuel + 1, tokens =>
    match parseNotExpr fuel tokens with
    | .error e => .error e
    | .ok (left, rest) => parseAndTail fuel left rest

/-- The loop of `parseAndExpr`. -/
def parseAndTail : ℕ → Bool → List Token → Except CondThrown (Bool × List Token)
  | 0, _, _ => .error .outOfFuel
  | fuel + 1, left, .and :: tokens =>
    match parseNotExpr fuel tokens with
    | .error e => .error e
    | .ok (right, rest) => parseAndTail fuel (left && right) rest
  | _ + 1, left, tokens => .ok (left, tokens)

/-- `not_expr := '!' not_expr | comparison`. -/
def parseNotExpr : ℕ → List Token → Except CondThrown (Bool × List Token)
  | 0, _ => .error .outOfFuel
  | fuel + 1, .not :: tokens =>
    match parseNotExpr fuel tokens with
    | .error e => .error e
    | .ok (inner, rest) => .ok (!inner, rest)
  | fuel + 1, tokens => parseComparison fuel tokens

/-- `comparison := '(' or_expr ')' | true | false | value (op value)?`. -/
def parseComparison : ℕ → List Token → Except CondThrown (Bool × List Token)
  | 0, _ => .error .outOfFuel
  | fuel + 1, .lParen :: tokens =>
    match parseOrExpr fuel tokens with
    | .error e => .error e
    | .ok (inner, .rParen :: rest) => .ok (inner, rest)
    | .ok _ => .error (.condition (.of "Expected ')'." ""))
  | _ + 1, .true :: tokens => .ok (true, tokens)
  | _ + 1, .false :: tokens => .ok (false, tokens)
  | _ + 1, tokens =>
    match parseValue context tokens with
    | .error e => .error e
    | .ok (lhs, .op op :: rest) =>
      match parseValue context rest with
      | .error e => .error e
      | .ok (rhs, rest) => .ok (lhs.compare op rhs, rest)
    | .ok (lhs, rest) => .ok (lhs.asTruthy, rest)

end

end

/-- As many turns as the parser can make: five for each token and for the end. -/
def parserFuel (tokens : List Token) : ℕ := 5 * tokens.length + 5

/-- Evaluates a condition on the outputs of the completed nodes. -/
def evaluateCondition (condition : String) (context : Context) : Except NopConditionError Bool :=
  if isBlank condition then .ok true
  else
    match tokenize (trim condition) with
    | .error e => .error e
    | .ok tokens =>
      match parseOrExpr context (parserFuel tokens) tokens with
      | .ok (value, _) => .ok value
      | .error (.condition e) => .error e
      | .error (.mapping e) => .error (.of s!"Condition evaluation error: {e.message}" condition)
      | .error .outOfFuel => .error (.of "Condition evaluation error: " condition)

end NpsSdk.Nop
