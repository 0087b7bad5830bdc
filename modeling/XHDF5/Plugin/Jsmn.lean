/-
# The JSON tokenizer of the plugin

`jsmn` turns a JSON text into a flat array of tokens with their positions. It is the non-strict
variant without parent links: a container is closed by a search for the last token that is still
open, and every unquoted word is a primitive.
-/

import XHDF5.Math.Token

namespace XHDF5.Plugin

open XHDF5.Math

/-- `jsmntype_t`. -/
inductive JsmnType
  | object
  | array
  | string
  | primitive
deriving DecidableEq

/-- `enum jsmnerr`. -/
inductive JsmnErr
  | nomem
  | inval
  | part
deriving DecidableEq

/-- `jsmntok_t`; an `end` of -1 is `none`. -/
structure JsmnTok where
  type : JsmnType
  start : Nat
  stop : Option Nat
  size : Nat
deriving DecidableEq

/-- The container is not closed yet. -/
def JsmnTok.isOpen (token : JsmnTok) : Bool := token.stop.isNone

/-- `jsmn_parser` with its tokens; a `toksuper` of -1 is `none`. -/
structure JsmnParser where
  pos : Nat
  tokens : List JsmnTok
  toksuper : Option Nat
deriving DecidableEq

/-- `jsmn_init`. -/
def jsmnInit : JsmnParser := ⟨0, [], none⟩

/-- `jsmn_alloc_token`. -/
def jsmnAllocToken (numTokens : Nat) (p : JsmnParser) (token : JsmnTok) :
    Except JsmnErr JsmnParser :=
  if numTokens ≤ p.tokens.length then .error .nomem
  else .ok { p with tokens := p.tokens ++ [token] }

/-- `tokens[toksuper].size++`. -/
def jsmnCount (p : JsmnParser) : JsmnParser :=
  match p.toksuper with
  | none => p
  | some k => { p with tokens := p.tokens.modify k fun token => { token with size := token.size + 1 } }

/-- The last token that is still open, found from the back. -/
def lastOpen (tokens : List JsmnTok) : Option Nat :=
  (tokens.reverse.findIdx? JsmnTok.isOpen).map fun k => tokens.length - 1 - k

/-- A hexadecimal digit as `jsmn_parse_string` tests it. -/
def isHex (c : Char) : Bool :=
  (48 ≤ c.toNat && c.toNat ≤ 57) || (65 ≤ c.toNat && c.toNat ≤ 70) ||
    (97 ≤ c.toNat && c.toNat ≤ 102)

/-- The symbols that may follow a backslash. -/
def isEscape (c : Char) : Bool :=
  c == '"' || c == '/' || c == '\\' || c == 'b' || c == 'f' || c == 'r' || c == 'n' || c == 't'

/-- Where the scan of a string stands. -/
inductive StringMode
  | plain
  | escape
  | hex (left : Nat)
deriving DecidableEq

/-- The loop of `jsmn_parse_string` behind the starting quote: the number of characters before the
ending quote, and the text behind it. -/
def scanString : StringMode → Nat → Text → Except JsmnErr (Nat × Text)
  | _, _, [] => .error .part
  | .plain, len, c :: text =>
      if c = '"' then .ok (len, text)
      else if c = '\\' then scanString .escape (len + 1) text
      else scanString .plain (len + 1) text
  | .escape, len, c :: text =>
      if isEscape c then scanString .plain (len + 1) text
      else if c = 'u' then scanString (.hex 4) (len + 1) text
      else .error .inval
  | .hex left, len, c :: text =>
      if isHex c then scanString (if left ≤ 1 then .plain else .hex (left - 1)) (len + 1) text
      else .error .inval

/-- The characters that end a primitive. -/
def endsPrimitive (c : Char) : Bool :=
  c == ':' || c == '\t' || c == '\r' || c == '\n' || c == ' ' || c == ',' || c == ']' || c == '}'

/-- A character that a primitive must not contain. -/
def badPrimitive (c : Char) : Bool := c.toNat < 32 || 127 ≤ c.toNat

/-- A container begins. -/
def jsmnOpen (numTokens : Nat) (type : JsmnType) (p : JsmnParser) : Except JsmnErr JsmnParser :=
  (jsmnAllocToken numTokens (jsmnCount p) ⟨type, p.pos, none, 0⟩).map fun q =>
    { q with pos := p.pos + 1, toksuper := some (q.tokens.length - 1) }

/-- A container ends: the last open token must be of its type; the one open before it becomes the
parent. -/
def jsmnClose (type : JsmnType) (p : JsmnParser) : Except JsmnErr JsmnParser :=
  match lastOpen p.tokens with
  | none => .error .inval
  | some k =>
      if (p.tokens[k]?).map JsmnTok.type ≠ some type then .error .inval
      else
        let tokens := p.tokens.modify k fun token => { token with stop := some (p.pos + 1) }
        .ok ⟨p.pos + 1, tokens, lastOpen tokens⟩

/-- `:` makes the last token the parent. -/
def jsmnColon (p : JsmnParser) : JsmnParser :=
  { p with
    pos := p.pos + 1
    toksuper := if p.tokens = [] then none else some (p.tokens.length - 1) }

/-- `,` gives the parent back to the container. -/
def jsmnComma (p : JsmnParser) : JsmnParser :=
  let isContainer := fun token : JsmnTok => token.type = .array ∨ token.type = .object
  match p.toksuper.bind (p.tokens[·]?) with
  | none => { p with pos := p.pos + 1 }
  | some parent =>
      if isContainer parent then { p with pos := p.pos + 1 }
      else
        { p with
          pos := p.pos + 1
          toksuper := (lastOpen p.tokens).elim p.toksuper some }

/-- A scalar was read: it gets a token and is counted by its parent. -/
def jsmnScalar (numTokens : Nat) (type : JsmnType) (start stop next : Nat) (p : JsmnParser) :
    Except JsmnErr JsmnParser :=
  (jsmnAllocToken numTokens p ⟨type, start, some stop, 0⟩).map fun q =>
    { jsmnCount q with pos := next }

/-- The loop of `jsmn_parse`, with a bound on its rounds. -/
def jsmnLoop (numTokens : Nat) : Nat → Text → JsmnParser → Except JsmnErr JsmnParser
  | 0, _, p => .ok p
  | _, [], p => .ok p
  | rounds + 1, c :: text, p =>
      if c = '{' then (jsmnOpen numTokens .object p).bind (jsmnLoop numTokens rounds text)
      else if c = '[' then (jsmnOpen numTokens .array p).bind (jsmnLoop numTokens rounds text)
      else if c = '}' then (jsmnClose .object p).bind (jsmnLoop numTokens rounds text)
      else if c = ']' then (jsmnClose .array p).bind (jsmnLoop numTokens rounds text)
      else if c = '"' then
        (scanString .plain 0 text).bind fun scanned =>
          let stop := p.pos + 1 + scanned.1
          (jsmnScalar numTokens .string (p.pos + 1) stop (stop + 1) p).bind
            (jsmnLoop numTokens rounds scanned.2)
      else if c = '\t' ∨ c = '\r' ∨ c = '\n' ∨ c = ' ' then
        jsmnLoop numTokens rounds text { p with pos := p.pos + 1 }
      else if c = ':' then jsmnLoop numTokens rounds text (jsmnColon p)
      else if c = ',' then jsmnLoop numTokens rounds text (jsmnComma p)
      else
        let word := (c :: text).takeWhile fun c => !endsPrimitive c
        if word.any badPrimitive then .error .inval
        else
          let stop := p.pos + word.length
          (jsmnScalar numTokens .primitive p.pos stop stop p).bind
            (jsmnLoop numTokens rounds ((c :: text).drop word.length))

/-- `jsmn_parse`: the tokens, whose number is its return value. Every round of the loop reads a
character. -/
def jsmnParse (numTokens : Nat) (text : Text) : Except JsmnErr (List JsmnTok) :=
  (jsmnLoop numTokens text.length text jsmnInit).bind fun p =>
    if p.tokens.any JsmnTok.isOpen then .error .part else .ok p.tokens

/-- The characters of a token. -/
def tokenText (text : Text) (token : JsmnTok) : Text :=
  (text.drop token.start).take (token.stop.getD 0 - token.start)

end XHDF5.Plugin
