import NpsSdk.Lib.TextDecoder
import NpsSdk.Lib.StringToNumber
import NpsSdk.Nip.Ca.IsoDate

/-!
# DER

`nip/x509/der.ts`: a reader that hands out the elements of a buffer in order, readers of what is nested in them,
and the writer of a sequence of strings.  Every byte that a reader looks at is noted, with the bounds of the
content it reads.
-/

namespace NpsSdk.Nip.X509

open NpsSdk.Lib

/-! ### Tags -/

def TAG_ENUMERATED : ℕ := 0x0a
def TAG_UTF8_STRING : ℕ := 0x0c
def TAG_OBJECT_ID : ℕ := 0x06
def TAG_OCTET_STRING : ℕ := 0x04
def TAG_SEQUENCE : ℕ := 0x30
def TAG_GENERALIZED_TIME : ℕ := 0x18
/-- `[0] EXPLICIT`. -/
def TAG_CONTEXT_0 : ℕ := 0xa0

def isContextSpecific (tag : ℕ) : Bool := tag &&& 0xc0 == 0x80

/-! ### Readings -/

/-- What is thrown. -/
inductive DerException
  | derError (message : String)
  /-- `TypeError`, of a decoder that replaces nothing. -/
  | typeError
  deriving DecidableEq

/-- A byte that is looked at, the content that is read, and the size of the buffer. -/
structure Look where
  index : ℕ
  start : ℕ
  limit : ℕ
  size : ℕ

/-- A computation that looks at bytes, and may throw. -/
structure Reading (α : Type) where
  result : Except DerException α
  looks : List Look

namespace Reading

variable {α β : Type}

protected def pure (a : α) : Reading α := ⟨.ok a, []⟩

protected def bind (x : Reading α) (f : α → Reading β) : Reading β :=
  match x.result with
  | .ok a => ⟨(f a).result, x.looks ++ (f a).looks⟩
  | .error e => ⟨.error e, x.looks⟩

instance : Monad Reading where
  pure := Reading.pure
  bind := Reading.bind

def throw (e : DerException) : Reading α := ⟨.error e, []⟩

/-- `throw new DerError(message)`, if `p`. -/
def refuseIf (p : Prop) [Decidable p] (message : String) : Reading Unit :=
  if p then throw (.derError message) else .pure ()

end Reading

/-! ### The reader -/

/-- One element, by the places of its content. -/
structure Tlv where
  tag : ℕ
  contentStart : ℕ
  contentEnd : ℕ
  stop : ℕ

/-- A cursor over the content between `start` and `limit`. -/
structure DerReader where
  buf : Bytes
  start : ℕ
  pos : ℕ
  limit : ℕ

namespace DerReader

/-- `new DerReader(buf)`. -/
def new (buf : Bytes) : DerReader := { buf, start := 0, pos := 0, limit := buf.length }

def hasData (r : DerReader) : Bool := decide (r.pos < r.limit)

/-- `buf[index]`. -/
def look (r : DerReader) (index : ℕ) : Reading ℕ :=
  ⟨.ok (r.buf.getD index 0).toNat, [⟨index, r.start, r.limit, r.buf.length⟩]⟩

/-- Tag of the next element, which is not consumed. -/
def peekTag (r : DerReader) : Reading ℕ := do
  Reading.refuseIf (¬ r.hasData) "unexpected end of DER data"
  r.look r.pos

/-- The bytes of a length, the first one first. -/
def lookLength (r : DerReader) : ℕ → ℕ → ℕ → Reading ℕ
  | _, 0, length => pure length
  | p, n + 1, length => do
    let byte ← r.look p
    lookLength r (p + 1) n (length * 256 + byte)

/-- The length field, and the place where it ends. -/
def parseLength (r : DerReader) : Reading (ℕ × ℕ) := do
  let p := r.pos + 1
  let first ← r.look p
  let p := p + 1
  if first < 0x80 then pure (first, p)
  else do
    let n := first &&& 0x7f
    Reading.refuseIf (n = 0) "indefinite-length encoding is not valid DER"
    Reading.refuseIf (4 < n) "DER length exceeds the supported range"
    Reading.refuseIf (r.limit < p + n) "truncated DER length"
    let length ← r.lookLength p n 0
    pure (length, p + n)

def parseTlv (r : DerReader) : Reading Tlv := do
  Reading.refuseIf (r.limit < r.pos + 2) "truncated DER header"
  let tag ← r.look r.pos
  Reading.refuseIf (tag &&& 0x1f = 0x1f) "multi-byte DER tags are not supported"
  let (length, p) ← r.parseLength
  let contentEnd := p + length
  Reading.refuseIf (r.limit < contentEnd) "DER value overruns its container"
  pure { tag, contentStart := p, contentEnd, stop := contentEnd }

/-- `tag.toString(16)`. -/
def hexText (tag : ℕ) : String := String.ofList (Nat.toDigits 16 tag)

def checkTag (tag : ℕ) : Option ℕ → Reading Unit
  | none => pure ()
  | some expected =>
    Reading.refuseIf (tag ≠ expected) s!"expected DER tag 0x{hexText expected}, got 0x{hexText tag}"

/-- Reads the next element, and the reader after it. -/
def read (r : DerReader) (expectedTag : Option ℕ) : Reading (Tlv × DerReader) := do
  let tlv ← r.parseTlv
  checkTag tlv.tag expectedTag
  pure (tlv, { r with pos := tlv.stop })

def readSequence (r : DerReader) (expectedTag : ℕ) : Reading (DerReader × DerReader) := do
  let (tlv, next) ← r.read (some expectedTag)
  pure ({ buf := r.buf, start := tlv.contentStart, pos := tlv.contentStart, limit := tlv.contentEnd }, next)

/-- Discards the next element. -/
def skip (r : DerReader) : Reading DerReader := do
  let (_, next) ← r.read none
  pure next

/-- `buf.subarray(from, to)`. -/
def subarray (buf : Bytes) (first last : ℕ) : Bytes := (buf.take last).drop first

/-- The content of the next element, none of which is looked at. -/
def readContent (r : DerReader) (expectedTag : ℕ) : Reading (Bytes × DerReader) := do
  let (tlv, next) ← r.read (some expectedTag)
  pure (subarray r.buf tlv.contentStart tlv.contentEnd, next)

/-- Notes that the bytes from `first` up to `last` are looked at. -/
def lookAll (r : DerReader) (first last : ℕ) : Reading Unit :=
  ⟨.ok (), (List.range' first (last - first)).map fun index => ⟨index, r.start, r.limit, r.buf.length⟩⟩

/-- The content of the next element, all of which is decoded. -/
def readText (r : DerReader) (expectedTag : ℕ) : Reading (Bytes × DerReader) := do
  let (tlv, next) ← r.read (some expectedTag)
  r.lookAll tlv.contentStart tlv.contentEnd
  pure (subarray r.buf tlv.contentStart tlv.contentEnd, next)

end DerReader

/-! ### Texts -/

def utf8Decode (bytes : Bytes) : Option (List Char) := (ByteArray.mk bytes.toArray).utf8Decode?.map Array.toList

/-- `new TextDecoder("utf-8", { fatal: true }).decode(bytes)`. -/
def decodeFatal (bytes : Bytes) : Option String :=
  (utf8Decode bytes).map fun text => String.ofList (TextDecoder.withoutMark false text)

/-- `new TextDecoder().decode(bytes)`. -/
def decodeReplacing (bytes : Bytes) : List Char :=
  let decoded := TextDecoder.decode {} bytes
  decoded.2 ++ decoded.1.flush

def DerReader.readUtf8String (r : DerReader) : Reading (String × DerReader) := do
  let (bytes, next) ← r.readText TAG_UTF8_STRING
  match decodeFatal bytes with
  | some text => pure (text, next)
  | none => Reading.throw .typeError

/-! ### Times -/

/-- `\d{width}`, and what follows. -/
def digits (width : ℕ) (cs : List Char) : Option (ℕ × List Char) :=
  if (cs.take width).length = width then (Ca.readDigits (cs.take width)).map fun n => (n, cs.drop width) else none

/-- The fraction of a second, as a rational number. -/
def fractionOf (cs : List Char) : ℚ := (Nat.ofDigitChars 10 cs 0 : ℚ) / (10 ^ cs.length : ℕ)

/-- `(\.\d+)?Z`, at the end. -/
def fraction : List Char → Option ℚ
  | ['Z'] => some 0
  | '.' :: cs =>
    let ds := cs.takeWhile Char.isDigit
    if ds ≠ [] ∧ cs.dropWhile Char.isDigit = ['Z'] then some (fractionOf ds) else none
  | _ => none

/-- What the expression of a time captures. -/
structure TimeFields where
  year : ℕ
  month : ℕ
  day : ℕ
  hour : ℕ
  minute : ℕ
  second : ℕ
  fraction : ℚ

/-- The expression of a time. -/
def matchTime (cs : List Char) : Option TimeFields := do
  let (year, cs) ← digits 4 cs
  let (month, cs) ← digits 2 cs
  let (day, cs) ← digits 2 cs
  let (hour, cs) ← digits 2 cs
  let (minute, cs) ← digits 2 cs
  let (second, cs) ← digits 2 cs
  let fraction ← fraction cs
  some { year, month, day, hour, minute, second, fraction }

/-- `Math.round(a)`, of a finite number. -/
def mathRound : JsDouble → ℤ
  | .fin a => (a + 1 / 2).floor
  | _ => 0

/-- `Math.round(Number.parseFloat(text) * 1000)`, of the text of a fraction. -/
def milliseconds (fraction : ℚ) : ℤ :=
  match JsDouble.ofRat fraction with
  | .fin a => mathRound (.ofRat (a * 1000))
  | _ => 0

/-- `Date.UTC(year, month - 1, day, hour, minute, second, ms)`, which takes a year below a hundred for one of the
twentieth century, and counts on past the end of a month. -/
def dateUTC (year month day hour minute second : ℕ) (ms : ℤ) : ℤ :=
  let year := if year ≤ 99 then 1900 + year else year
  let month : ℤ := month - 1
  let days := Ca.dayOf (year + month / 12) ((month % 12).toNat + 1) 1 + day - 1
  days * 86400000 + hour * 3600000 + minute * 60000 + second * 1000 + ms

def TimeFields.instant (t : TimeFields) : ℤ :=
  dateUTC t.year t.month t.day t.hour t.minute t.second (milliseconds t.fraction)

def malformedTime (value : List Char) : DerException :=
  let text := String.ofList value
  .derError s!"malformed GeneralizedTime: '{text}'"

def parseGeneralizedTime (value : List Char) : Except DerException ℤ :=
  match matchTime value with
  | none => .error (malformedTime value)
  | some t =>
    if t.instant < -Ca.maxTime ∨ Ca.maxTime < t.instant then .error (malformedTime value) else .ok t.instant

def DerReader.readGeneralizedTime (r : DerReader) : Reading (ℤ × DerReader) := do
  let (bytes, next) ← r.readText TAG_GENERALIZED_TIME
  match parseGeneralizedTime (decodeReplacing bytes) with
  | .ok t => pure (t, next)
  | .error e => Reading.throw e

/-! ### The writer -/

/-- The loop that spells a length, where `n` is shifted as an unsigned number of 32 bits. -/
def lengthBytes : ℕ → ℕ → Bytes
  | 0, _ => []
  | fuel + 1, n => if n = 0 then [] else lengthBytes fuel (n % 2 ^ 32 / 256) ++ [UInt8.ofNat (n % 256)]

/-- No more than 24 bits are left after the first turn of the loop, so that there are four turns at most. -/
def derEncode (tag : ℕ) (content : Bytes) : Bytes :=
  if content.length < 0x80 then [UInt8.ofNat tag, UInt8.ofNat content.length] ++ content
  else
    let lenBytes := lengthBytes 4 content.length
    [UInt8.ofNat tag, UInt8.ofNat (0x80 ||| lenBytes.length)] ++ lenBytes ++ content

def derEncodeUtf8Sequence (values : List String) : Bytes :=
  derEncode TAG_SEQUENCE (values.flatMap fun v => derEncode TAG_UTF8_STRING (encodeText v.toList))

end NpsSdk.Nip.X509
