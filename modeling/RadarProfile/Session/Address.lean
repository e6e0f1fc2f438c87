import RadarProfile.Number.Integer
import RadarProfile.Text.Utf8

set_option autoImplicit false

/-! # Addresses

An address names a protocol and a place, with a slash between them, and may carry
metadata after a question mark and a configuration after a hash. Both are lists of named
values with semicolons between them. There is at least one value behind either sign, each
value has a name, and they are kept in the order of their names. Characters that separate
lines or paragraphs have no place in an address. -/

namespace RadarProfile

structure AddressField where
  name : Text
  value : Text
deriving DecidableEq

structure Address where
  protocol : Text
  place : Text
  metadata : List AddressField
  configuration : List AddressField
deriving DecidableEq

namespace AddressField

/-- The name ends at the first equals sign. Without one there is no value. -/
def ofText (t : Text) : AddressField :=
  ⟨t.takeWhile (· != '='), (t.dropWhile (· != '=')).drop 1⟩

/-- An empty value is written as its name alone. -/
def toText (field : AddressField) : Text :=
  if field.value.isEmpty then field.name else field.name ++ '=' :: field.value

/-- Fields in the order of their names; those of one name stay in their order. -/
def sorted (fields : List AddressField) : List AddressField :=
  fields.mergeSort fun a b => decide (String.ofList a.name ≤ String.ofList b.name)

/-- The fields of a list. Empty entries are dropped. -/
def listOfText? (t : Text) : Option (List AddressField) :=
  let fields := ((t.splitOnP (· == ';')).filter (!·.isEmpty)).map ofText
  -- something has to remain, and nothing that remains may lack a name
  if fields.isEmpty || fields.any (·.name.isEmpty) then none else some (sorted fields)

def partOfText? : Option Text → Option (List AddressField)
  | none => some []
  | some t => listOfText? t

def partToText (sign : Char) : List AddressField → Text
  | [] => []
  | fields => sign :: [';'].intercalate (fields.map toText)

end AddressField

namespace Address

def separators : List Char := [Char.ofNat 0x2028, Char.ofNat 0x2029]

def splitAtFirst (sign : Char) (t : Text) : Text × Option Text :=
  match t.dropWhile (· != sign) with
  | [] => (t, none)
  | _ :: rest => (t.takeWhile (· != sign), some rest)

/-- The address of a protocol and of what follows its slash. The first hash and the first
question mark count. -/
def ofParts? (protocol rest : Text) : Option Address :=
  let (front, configuration) := splitAtFirst '#' rest
  let (place, metadata) := splitAtFirst '?' front
  -- a question mark must not stand behind the hash alone
  if metadata.isNone && (configuration.getD []).contains '?' then none
  else
    match AddressField.partOfText? metadata, AddressField.partOfText? configuration with
    | some metadata, some configuration =>
      some ⟨protocol, place, metadata, configuration⟩
    | _, _ => none

/-- The address that a text holds, if it has the form of an address. -/
def ofText? (t : Text) : Option Address :=
  if t.any (separators.contains ·) then none
  else
    match splitAtFirst '/' t with
    | (_, none) => none
    | (protocol, some rest) =>
      -- neither side of the slash is empty, and no sign stands before it
      if protocol.isEmpty || rest.isEmpty || protocol.any ("?#".toList.contains ·) then none
      else ofParts? protocol rest

def locator (a : Address) : Text := a.protocol ++ '/' :: a.place

def toText (a : Address) : Text :=
  a.locator ++ AddressField.partToText '?' a.metadata ++
    AddressField.partToText '#' a.configuration

/-! ## Options -/

def firstValue? (fields : List AddressField) (name : Text) : Option Text :=
  (fields.find? fun field => field.name == name).map (·.value)

/-- What the configuration says about a name. Of several values the first counts. -/
def configured? (a : Address) (name : Text) : Option Text := firstValue? a.configuration name

def described? (a : Address) (name : Text) : Option Text := firstValue? a.metadata name

/-- Where the configuration has a value for a name, it passes a test. -/
def admits (a : Address) (name : Text) (test : Text → Bool) : Bool :=
  (a.configured? name).all test

/-- A session has to fail where it fails at this address. -/
def isRequired (usually : Bool) (a : Address) : Bool :=
  -- the address may say so itself
  match a.configured? "exit_on_failure".toList with
  | some value =>
    if value == "true".toList then true
    else if value == "false".toList then false
    else usually
  | none => usually

/-- The address is tried once and then given up: there is no time between two attempts. -/
def isTriedOnce (a : Address) : Bool :=
  (a.configured? "retry_period_init_ms".toList).bind Integer.ofText? == some 0

/-! ## Size -/

/-- The most bytes that the protocol, the place and the metadata have together where a
session listens. -/
def mostBytes : Nat := 255

def fits (a : Address) (place : Text) : Bool :=
  let metadata := (AddressField.partToText '?' a.metadata).drop 1
  (Utf8.encode (a.protocol ++ place ++ metadata)).length ≤ mostBytes

/-! ## Hosts and ports -/

def greatestPort : Nat := 65535

/-- The host and the port of a place: what stands before and after its last colon. -/
def hostAndPort? (place : Text) : Option (Text × Nat) :=
  match splitAtFirst ':' place.reverse with
  | (_, none) => none
  | (port, some host) =>
    -- behind a bracket the port has no sign
    if host.head? == some ']' && port.getLast? == some '+' then none
    else (Integer.natOfText? greatestPort port.reverse).map fun port => (host.reverse, port)

end Address

end RadarProfile
