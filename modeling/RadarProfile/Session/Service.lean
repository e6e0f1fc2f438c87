import RadarProfile.Endpoint.Dispatch
import RadarProfile.Session.KeyExpr
import RadarProfile.Text.Utf8

set_option autoImplicit false

/-! # The command service and the parameter publisher

Over a session, commands go as queries to a service that is named by a key expression, and
parameters are published as JSON under a namespace. The service answers a query with a
reply, with a refusal, or not at all, and may declare that it is alive. -/

namespace RadarProfile

/-! ## The service -/

inductive ServiceReply where
  | answer (bytes : List UInt8)
  | refusal (bytes : List UInt8)
  | silence
deriving DecidableEq

/-- A service that a session can reach: its name, the replies it has still to give, whether
it declares itself alive, and the queries it has taken so far. -/
structure Service where
  name : Text
  replies : List ServiceReply
  isAlive : Bool
  received : List Text
deriving DecidableEq

namespace Service

/-- The reply to the next query. -/
def nextReply (service : Service) : ServiceReply :=
  -- when no more are prescribed, the service accepts
  service.replies.head?.getD (.answer (Utf8.encode successMarker))

def take (service : Service) (payload : Text) : Service :=
  { service with
    replies := service.replies.tail
    received := service.received ++ [payload] }

/-- A service that is declared under a name. Only a key expression can be declared. -/
def declare? (name : Text) (replies : List ServiceReply) (isAlive : Bool) :
    Option Service :=
  if KeyExpr.isValid name then some ⟨name, replies, isAlive, []⟩ else none

/-- The key expression that a query goes to: what stands before a question mark. -/
def address (name : Text) : Text := name.takeWhile (· != '?')

def hears (service : Service) (name : Text) : Bool :=
  KeyExpr.isValid (address name) && KeyExpr.overlap (address name) service.name

def noReply (name : Text) : DeliveryFault := .stated ("no reply from ".toList ++ name)

def response (name : Text) : ServiceReply → Except DeliveryFault Text
  | .answer bytes => .ok (Utf8.decode bytes)
  | .refusal bytes => .error (.stated (Utf8.decode bytes))
  | .silence => .error (noReply name)

/-- The note that a reply leaves: only an answer leaves one. -/
def replyNotes (name : Text) : ServiceReply → List Note
  | .answer bytes => [.serviceReplied name (Utf8.decode bytes)]
  | _ => []

/-- The endpoint that queries the service of the given name. Its state is the service that
the session reaches, if it reaches any. -/
def endpoint (name : Text) : Endpoint (Option Service) where
  send reached command :=
    if KeyExpr.isValid (address name) then
      match reached with
      | some service =>
        if service.hears name then
          let reply := service.nextReply
          ⟨response name reply, replyNotes name reply, some (service.take command)⟩
        else ⟨.error (noReply name), [], reached⟩
      | none => ⟨.error (noReply name), [], none⟩
    else ⟨.error (.invalidService name), [], reached⟩
  awaitReady reached milliseconds :=
    -- nothing is cut off the name here
    let isThere := reached.any fun service => service.isAlive && service.hears name
    if KeyExpr.isValid name && isThere && decide (0 < milliseconds) then
      ⟨true, [.serviceAlive name]⟩
    else ⟨false, []⟩

end Service

/-! ## The publisher -/

namespace Publisher

def encoding : Text := "application/json".toList

/-- The key that a parameter is published under: the namespace, without the slashes at its
ends, and the parameter's name. -/
def topic (namespaceName key : Text) : Text :=
  KeyExpr.trimSlashes namespaceName ++ '/' :: key

structure Put where
  key : Text
  payload : Text
deriving DecidableEq

/-- The store that publishes under a namespace. What is no key expression is not
published. Its state is what was published, the latest last. -/
def store (namespaceName : Text) : Store (List Put) where
  write published key value :=
    let name := topic namespaceName key
    if KeyExpr.isValid name then ⟨none, [], published ++ [⟨name, value.jsonText⟩]⟩
    else ⟨some (.session (.invalidKey name)), [], published⟩

end Publisher

/-! ## Traffic -/

inductive Packet where
  | query (payload : Text)
  | put (key payload encoding : Text)
deriving DecidableEq

/-- The traffic of a run that others on the session see: the queries that the service takes,
and the published values that reach whoever subscribes to everything. -/
def traffic (name : Text) (reached : Option Service) (namespaceName : Text)
    (c : Chronicle) : List Packet :=
  c.filterMap fun entry => match entry with
    | .sent command =>
      if reached.any (·.hears name) then some (.query command) else none
    | .wrote key value true =>
      let topic := Publisher.topic namespaceName key
      if KeyExpr.overlap KeyExpr.everything topic then
        some (.put topic value.jsonText Publisher.encoding)
      else none
    | _ => none

end RadarProfile
