import Provenant.Data.Json

/-!
# Redaction of known credential shapes

The token scanner of `confinement/src/redact.rs`: a stateful filter over chunks of bytes that
replaces tokens behind known markers, and passwords in URL authorities, by `[REDACTED]`. Bytes
that may begin a marker, an escape or `://` are held back in `tail` until the next chunk.

## Main definitions

* `Scanner` — the scanner's state (`TokenScanner`).
* `Scanner.process` — one call of `process`.

## Implementation notes

The source walks an index through its input and, when a token or an authority ends, first
closes it and then looks at the same byte again. `Scanner.scan` does both at once, and says how
many bytes it used; `Scanner.process` skips the bytes used after the first, so the recursion is
on the input.
-/

namespace Provenant.Redact

open Json (Text text hexDigit)

/-- Bytes in flight through a filter. -/
abbrev Bytes := List UInt8

/-- `FRAME_LIMIT`: the longest chunk, and the longest authority, that a filter takes. -/
def frameLimit : Nat := 64 * 1024

/-- `FilterError`. -/
inductive FilterError
  | filter
  deriving DecidableEq, Repr

/-- The text a secret is replaced by. -/
def redacted : Bytes := text "[REDACTED]"

/-- The byte `\`. -/
def backslash : UInt8 := 92

/-! ### Byte classes -/

def isUpper (b : UInt8) : Bool := 65 ≤ b && b ≤ 90
def isLower (b : UInt8) : Bool := 97 ≤ b && b ≤ 122
def isDigit (b : UInt8) : Bool := 48 ≤ b && b ≤ 57
def isAlphanumeric (b : UInt8) : Bool := isUpper b || isLower b || isDigit b
def isHexDigit (b : UInt8) : Bool := isDigit b || (65 ≤ b && b ≤ 70) || (97 ≤ b && b ≤ 102)
def isWhitespace (b : UInt8) : Bool := [32, 9, 10, 12, 13].contains b

/-- The value of a hexadecimal digit, `0` for other bytes. -/
def hexValue (b : UInt8) : Nat :=
  if isDigit b then b.toNat - 48
  else if 65 ≤ b && b ≤ 70 then b.toNat - 55
  else if 97 ≤ b && b ≤ 102 then b.toNat - 87
  else 0

/-- An ASCII byte in lower case. -/
def toLower (b : UInt8) : UInt8 := if isUpper b then b + 32 else b

/-- `word_byte`. -/
def wordByte (b : UInt8) : Bool := isAlphanumeric b || b == 95

/-- `url_delimiter`. -/
def urlDelimiter (b : UInt8) : Bool := isWhitespace b || (text "/?#\"'<>`\\").contains b

/-! ### Markers -/

inductive TokenKind
  | bearer
  | generic
  | awsAccessKey
  deriving DecidableEq, Repr

/-- `TOKEN_MARKERS`. -/
def tokenMarkers : List (Bytes × TokenKind) :=
  [(text "Bearer ", .bearer), (text "ghp_", .generic), (text "gho_", .generic),
   (text "ghu_", .generic), (text "ghs_", .generic), (text "ghr_", .generic),
   (text "github_pat_", .generic), (text "sk-", .generic), (text "AKIA", .awsAccessKey)]

/-- `minimum_token_length`. -/
def minimumTokenLength : TokenKind → Nat
  | .bearer | .generic => 20
  | .awsAccessKey => 16

/-- `token_byte`. -/
def tokenByte (kind : TokenKind) (b : UInt8) : Bool :=
  match kind with
  | .bearer | .generic => isAlphanumeric b || (text "._~+/-=_").contains b
  | .awsAccessKey => isUpper b || isDigit b

inductive MarkerMatch
  | complete (length : Nat)
  | partly
  | mismatch
  deriving DecidableEq, Repr

/-- A byte as a JSON `\u` escape with four lower-case digits. -/
def unicodeEscape (b : UInt8) : Bytes :=
  [backslash, 117, 48, 48, hexDigit (b.toNat / 16), hexDigit (b.toNat % 16)]

/-- `marker_match`, with `used` bytes of the input already matched. A marker byte may be written
as a `\u` escape, with digits of either case but a small `u`. -/
def markerMatch (bytes : Bytes) (used : Nat) : Bytes → MarkerMatch
  | [] => .complete used
  | expected :: marker =>
    match bytes with
    | [] => .partly
    | b :: rest =>
      if b = backslash then
        let width := min bytes.length 6
        if rest.head?.any (· ≠ 117)
            || (bytes.take width).map toLower ≠ ((unicodeEscape expected).take width).map toLower then
          .mismatch
        else if width < 6 then .partly
        else markerMatch (bytes.drop 6) (used + 6) marker
      else if b = expected then markerMatch rest (used + 1) marker
      else .mismatch

/-- `token_marker_at`: the first marker that the bytes begin with. -/
def tokenMarkerAt (bytes : Bytes) : Option (Nat × TokenKind) :=
  tokenMarkers.findSome? fun m => match markerMatch bytes 0 m.1 with
    | .complete length => some (length, m.2)
    | _ => none

/-- `token_marker_prefix`: the bytes may be the beginning of a marker. -/
def tokenMarkerPrefix (bytes : Bytes) : Bool :=
  tokenMarkers.any fun m => markerMatch bytes 0 m.1 == .partly

/-! ### The scanner -/

/-- `ActiveToken`: a marker has been seen and its token is being read. -/
structure ActiveToken where
  marker : Bytes
  kind : TokenKind
  body : Bytes
  bodyLength : Nat
  emitted : Bool
  deriving DecidableEq, Repr

/-- The JSON escape that the last byte stands in, for boundary detection only. -/
inductive Escape
  | none
  | slash
  | unicode (value count : Nat)
  deriving DecidableEq, Repr

/-- `TokenScanner`: the token that is being read, the bytes kept for the next chunk and what the
bytes so far say about the next one. -/
structure Scanner where
  active : Option ActiveToken := none
  tail : Bytes := []
  boundary : Bool := true
  escape : Escape := .none
  urlAuthority : Option Bytes := none
  matched : Bool := false
  deriving DecidableEq, Repr

/-- `observe`: follow the escapes, and note whether a token may begin at the next byte. -/
def Scanner.observe (s : Scanner) (b : UInt8) : Scanner :=
  match s.escape with
  | .none =>
    if b = backslash then { s with boundary := true, escape := .slash }
    else { s with boundary := !wordByte b, escape := .none }
  | .slash =>
    if b = 117 then { s with boundary := false, escape := .unicode 0 0 }
    else if (text "bfnrt\\\"/").contains b then { s with boundary := true, escape := .none }
    else { s with boundary := !wordByte b, escape := .none }
  | .unicode value count =>
    if isHexDigit b then
      let value := value * 16 + hexValue b
      if count = 3 then
        { s with boundary := decide (value > 127) || !wordByte (UInt8.ofNat value), escape := .none }
      else { s with boundary := false, escape := .unicode value (count + 1) }
    else { s with boundary := !wordByte b, escape := .none }

/-- `observe` each of some bytes. -/
def Scanner.observeAll (s : Scanner) (bytes : Bytes) : Scanner := bytes.foldl Scanner.observe s

/-- `finish_active`: give up the token being read, and the output this releases. -/
def Scanner.finishActive (s : Scanner) : Scanner × Bytes :=
  match s.active with
  | some active => ({ s with active := none }, if active.emitted then [] else active.marker ++ active.body)
  | none => (s, [])

/-- `finish_authority`: the output of a whole URL authority, without its password. -/
def Scanner.finishAuthority (s : Scanner) (authority : Bytes) : Scanner × Bytes :=
  -- the text before the last `@`, when there is one
  match authority.reverse.idxOf? 64 with
  | some k =>
    let userinfoEnd := authority.length - 1 - k
    if (authority.take userinfoEnd).contains 58 then
      ({ s with matched := true }, redacted ++ authority.drop userinfoEnd)
    else (s, authority)
  | none => (s, authority)

/-- What one look at the input does: the scanner after it, the bytes it emits, and how many bytes
of the input it uses, or `none` when the rest of the input is kept for the next chunk. -/
structure Look where
  scanner : Scanner
  output : Bytes
  used : Option Nat

/-- Emit some bytes before what a look emits. -/
def Look.after (output : Bytes) (look : Look) : Look := { look with output := output ++ look.output }

/-- Keep the rest of the input for the next chunk. -/
def Scanner.hold (s : Scanner) (rest : Bytes) : Look := ⟨{ s with tail := s.tail ++ rest }, [], none⟩

/-- A look at input that stands in no token and in no authority. -/
def Scanner.scanPlain (s : Scanner) (eof : Bool) (b : UInt8) (rest : Bytes) : Look :=
  let input := b :: rest
  let emit : Look := ⟨s.observe b, [b], some 1⟩
  if (text "://").isPrefixOf input then
    ⟨{ s.observeAll (text "://") with urlAuthority := some [] }, text "://", some 3⟩
  else if !eof && input.isPrefixOf (text "://") then s.hold input
  -- only an escaped opening backslash disables a Unicode marker
  else if s.boundary && !(b == backslash && s.escape == .slash) then
    match tokenMarkerAt input with
    | some (length, kind) =>
      let marker := input.take length
      ⟨{ s.observeAll marker with active := some ⟨marker, kind, [], 0, false⟩ }, [], some length⟩
    | none => if !eof && tokenMarkerPrefix input then s.hold input else emit
  else emit

/-- The width of a `\u` escape of a token byte, when the input begins with one. As Rust's integer
parser does, the four digits may begin with a plus sign. -/
def escapedTokenByte (kind : TokenKind) (input : Bytes) : Option Nat :=
  match input with
  | 92 :: 117 :: a :: b :: c :: d :: _ =>
    if (isHexDigit a || a == 43) && isHexDigit b && isHexDigit c && isHexDigit d then
      let value := ((hexValue a * 16 + hexValue b) * 16 + hexValue c) * 16 + hexValue d
      if value ≤ 127 && tokenByte kind (UInt8.ofNat value) then some 6 else none
    else none
  | _ => none

/-- The input may be the beginning of a `\u` escape. -/
def escapePrefix (input : Bytes) : Bool :=
  input.length < 6 && match input with
    | [92] => true
    | 92 :: 117 :: digits => digits.all isHexDigit
    | _ => false

/-- One more byte of a token, written in `bytes`: the token, and the output when this byte makes
it long enough to be a secret. -/
def ActiveToken.extend (active : ActiveToken) (bytes : Bytes) : ActiveToken × Bool :=
  if active.emitted then (active, false)
  else if active.bodyLength + 1 ≥ minimumTokenLength active.kind then
    ({ active with body := [], bodyLength := active.bodyLength + 1, emitted := true }, true)
  else ({ active with body := active.body ++ bytes, bodyLength := active.bodyLength + 1 }, false)

/-- A look at input outside an authority. -/
def Scanner.scanToken (s : Scanner) (eof : Bool) (b : UInt8) (rest : Bytes) : Look :=
  let input := b :: rest
  match s.active with
  | none => s.scanPlain eof b rest
  | some active =>
    if !eof && escapePrefix input then s.hold input
    else if tokenByte active.kind b || (escapedTokenByte active.kind input).isSome then
      let width := (escapedTokenByte active.kind input).getD 1
      let (active, secret) := active.extend (input.take width)
      let output := if secret then
          (if active.kind = .bearer then text "Bearer " else []) ++ redacted
        else []
      ⟨{ s with active := some active, matched := s.matched || secret }.observeAll (input.take width),
        output, some width⟩
    else
      let (s, output) := s.finishActive
      (s.scanPlain eof b rest).after output

/-- One look at the input. -/
def Scanner.scan (s : Scanner) (eof : Bool) (b : UInt8) (rest : Bytes) :
    Except FilterError Look :=
  match s.urlAuthority with
  | none => .ok (s.scanToken eof b rest)
  | some authority =>
    if urlDelimiter b then
      let (s, output) := { s with urlAuthority := none }.finishAuthority authority
      .ok ((s.scanToken eof b rest).after output)
    else if authority.length + 1 > frameLimit then .error .filter
    else .ok ⟨{ s with urlAuthority := some (authority ++ [b]) }.observe b, [], some 1⟩

/-- `process`, with `skip` bytes of the input already used by the last look. -/
def Scanner.process (s : Scanner) (eof : Bool) (skip : Nat) :
    Bytes → Except FilterError (Scanner × Bytes)
  | [] => .ok (if eof then s.finishActive else (s, []))
  | b :: rest =>
    match skip with
    | skip + 1 => s.process eof skip rest
    | 0 => do
      let look ← s.scan eof b rest
      match look.used with
      | none => return (look.scanner, look.output)
      | some used =>
        let (s, output) ← look.scanner.process eof (used - 1) rest
        return (s, look.output ++ output)

/-- `TokenScanner::filter`. -/
def Scanner.filter (s : Scanner) (bytes : Bytes) : Except FilterError (Scanner × Bytes) :=
  { s with tail := [] }.process false 0 (s.tail ++ bytes)

/-- `TokenScanner::finish`. -/
def Scanner.finish (s : Scanner) : Except FilterError (Scanner × Bytes) := do
  let (s, output) ← { s with tail := [] }.process true 0 s.tail
  let (s, last) := match s.urlAuthority with
    | some authority => { s with urlAuthority := none }.finishAuthority authority
    | none => (s, [])
  return ({ s with boundary := true, escape := .none, active := none }, output ++ last)

/-- Refuse more than a frame of bytes. -/
def bounded (bytes : Bytes) : Except FilterError Unit :=
  if bytes.length > frameLimit then .error .filter else .ok ()

end Provenant.Redact
