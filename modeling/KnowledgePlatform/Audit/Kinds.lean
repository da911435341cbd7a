import KnowledgePlatform.Json.Value

/-! The audit event catalog: one entry for each event type. -/

namespace KnowledgePlatform.Audit

def auditStoreSource : String := "urn:knowledge-platform:audit-store"
def auditRelaySource : String := "urn:knowledge-platform:audit-relay"
def controlTypePrefix : List Char := ['a', 'u', 'd', 'i', 't', '.']

/-- Types reserved for control events. -/
def isControlType (eventType : String) : Bool :=
  controlTypePrefix.isPrefixOf eventType.toList

/-- Who submits an event type. -/
inductive Origin where
  | relay
  | store
  | relayControl
deriving DecidableEq

namespace Origin

def asStr : Origin → String
  | relay => "relay"
  | store => "store"
  | relayControl => "relay_control"

def all : List Origin := [relay, store, relayControl]

def parse (text : String) : Option Origin := all.find? fun origin => origin.asStr = text

end Origin

/-- What the verifier reads of a catalog entry. -/
structure EventSpec where
  (eventType source : String)
  origin : Origin

structure Catalog where
  events : List EventSpec

/-- Event types are unique in a catalog, so the first entry of a type is its entry. -/
def Catalog.get (catalog : Catalog) (eventType : String) : Option EventSpec :=
  catalog.events.find? fun e => e.eventType = eventType

/-! ## Primitive checks -/

def nilUuid : String := "00000000-0000-0000-0000-000000000000"

/-- A canonical lowercase UUID that is not nil. -/
def isUuid (text : String) : Bool := decide (Uuid.IsCanonical text) && text != nilUuid

end KnowledgePlatform.Audit
