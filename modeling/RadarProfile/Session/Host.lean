import RadarProfile.Number.Integer

set_option autoImplicit false

/-! # Hosts by number

The number of a host has 32 bits or 128. The short kind is written in up to four parts with
dots between them, each in decimal, octal or hexadecimal digits; the last part fills the
bytes that the parts before it leave. The long kind is written in eight groups of four
hexadecimal digits with colons between them, where two colons may stand for one gap of zero
groups and the last two groups may be written as four decimal parts.

A short number can be embedded in a long one, and means the same host there. Each kind has a
wildcard, the number zero: who listens at it listens at all hosts of a machine. The wildcard
of the long kind covers the hosts of both kinds. -/

namespace RadarProfile

/-- The number of a host: 32 bits, or eight groups of 16 bits. -/
inductive Host where
  | short (number : Nat)
  | long (groups : List Nat)
deriving DecidableEq

structure Port where
  host : Host
  number : Nat
deriving DecidableEq

namespace Host

/-! ## Reading -/

/-- The number whose bytes are given in parts, when so many bytes are left: one byte for
each part, and what is left for the last one. -/
def join? : Nat → List Nat → Option Nat
  | 0, _ => none
  | _ + 1, [] => none
  | left + 1, [last] => if last < Nat.pow 256 (left + 1) then some last else none
  | left + 1, part :: rest =>
    if part < 256 then (join? left rest).map (part * Nat.pow 256 left + ·) else none

/-- The short number that up to four parts with dots between them give. -/
def ofDotted? (t : Text) : Option Nat :=
  ((t.splitOnP (· == '.')).mapM Integer.ofMarkedDigits?).bind (join? 4)

def plainByte? (t : Text) : Option Nat :=
  if 3 < t.length || (t.head? == some '0' && t != ['0']) then none
  else (Integer.ofDigits? 10 t).filter (· < 256)

/-- The short number of exactly four plain bytes. -/
def ofPlainBytes? (t : Text) : Option Nat :=
  (((t.splitOnP (· == '.')).mapM plainByte?).filter (·.length == 4)).bind (join? 4)

def group? (t : Text) : Option Nat :=
  if 4 < t.length then none else Integer.ofDigits? 16 t

/-- Groups of which the last two may be written as four bytes. -/
def groups? : List Text → Option (List Nat)
  | [] => some []
  | [last] =>
    match ofPlainBytes? last with
    | some number => some [number / 65536, number % 65536]
    | none => (group? last).map ([·])
  | first :: rest =>
    match group? first, groups? rest with
    | some group, some groups => some (group :: groups)
    | _, _ => none

def splitAtGap : Text → Option (Text × Text)
  | [] => none
  | ':' :: ':' :: rest => some ([], rest)
  | c :: rest => (splitAtGap rest).map fun (before, after) => (c :: before, after)

def betweenColons (t : Text) : List Text :=
  if t.isEmpty then [] else t.splitOnP (· == ':')

/-- The groups of a long number. -/
def ofColons? (t : Text) : Option (List Nat) :=
  match splitAtGap t with
  | none => (groups? (betweenColons t)).filter (·.length == 8)
  | some (before, after) =>
    match (betweenColons before).mapM group?, groups? (betweenColons after) with
    | some front, some back =>
      -- a gap stands for one group or more
      if front.length + back.length < 8 then
        some (front ++ List.replicate (8 - front.length - back.length) 0 ++ back)
      else none
    | _, _ => none

/-- The host that a text gives by number. Between brackets there is a long number. -/
def ofText? (t : Text) : Option Host :=
  if t.head? == some '[' && t.getLast? == some ']' then
    (ofColons? (t.drop 1).dropLast).map .long
  else
    match ofDotted? t with
    | some number => some (.short number)
    | none => (ofColons? t).map .long

/-! ## Writing -/

def dotted (number : Nat) : Text :=
  ['.'].intercalate ([16777216, 65536, 256, 1].map fun unit => Text.ofNat (number / unit % 256))

def colons (groups : List Nat) : Text := [':'].intercalate (groups.map (Nat.toDigits 16))

/-- Where the longest row of zero groups begins, and how long it is. -/
def gap (groups : List Nat) : Nat × Nat :=
  (List.range groups.length).foldl (fun best start =>
    let length := ((groups.drop start).takeWhile (· == 0)).length
    -- of rows of one length the first counts
    if best.2 < length then (start, length) else best) (0, 0)

def embedded? : List Nat → Option Nat
  | [0, 0, 0, 0, 0, 65535, high, low] => some (high * 65536 + low)
  | _ => none

def toText : Host → Text
  | short number => dotted number
  | long groups =>
    match embedded? groups with
    | some number => "::ffff:".toList ++ dotted number
    | none =>
      let (start, length) := gap groups
      -- a single group is written as a zero
      if length < 2 then colons groups
      else colons (groups.take start) ++ "::".toList ++ colons (groups.drop (start + length))

/-! ## Kinds of hosts -/

def plain : Host → Host
  | short number => .short number
  | long groups =>
    match embedded? groups with
    | some number => .short number
    | none => .long groups

def isMulticast : Host → Bool
  | short number => number / 16777216 / 16 == 14
  | long groups => (groups.head?.getD 0) / 256 == 255

/-- The first host is a wildcard that takes in the second. -/
def covers (a b : Host) : Bool :=
  match a.plain, b.plain with
  | .short number, .short _ => number == 0
  | .short _, .long _ => false
  | .long groups, _ => groups.all (· == 0)

/-- There is a host at which one listens at either. -/
def overlaps (a b : Host) : Bool := a.plain == b.plain || a.covers b || b.covers a

end Host

namespace Port

/-- One of the ports that a machine chooses for a listener that leaves the choice to it.
They are all written in five digits. -/
def chosen : Nat := 49152

def given (p : Port) : Port := if p.number = 0 then ⟨p.host, chosen⟩ else p

def toText (p : Port) : Text :=
  (match p.host with
    | .short _ => p.host.toText
    | .long _ => '[' :: p.host.toText ++ [']']) ++ ':' :: Text.ofNat p.number

/-- Both ports cannot be listened at together. A port that the machine chooses is free. -/
def clashes (a b : Port) : Bool :=
  a.number != 0 && a.number == b.number && a.host.overlaps b.host

end Port

end RadarProfile
