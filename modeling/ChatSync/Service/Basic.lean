import ChatSync.Cache.Rules
import ChatSync.Realm
import ChatSync.Store.Realm

/-!
# The service state

The service owns the store, the caches and the registry of realms. Each
operation runs in `SyncM`: it may fail with a `SyncError`, and whatever it
did before failing stays done (a store write is all or nothing by itself).
Events are published only after the write they describe: `emit` first lets
the caches apply each event, then publishes it, followed by what the caches
derived from it.

A service can be told that a store operation fails (`faults`), to exercise
its error paths.
-/

namespace ChatSync

/-- Why a service operation failed. -/
inductive SyncError where
  | unsupportedBackend (realm : String)
  | backend (realm : String) (e : RealmError)
  | identityConflict (realm localId : String)
  | malformedEntity (text : String)
  | chatNotFound (chat : Entity)
  | store (e : StoreError)
  | eventDispatch (message : String)
  | lockPoisoned
  deriving DecidableEq, Repr

/-- The sentence that describes the error. -/
def SyncError.message : SyncError → String
  | .unsupportedBackend r => "Unsupported backend: no realm registered for " ++ r
  | .backend r e => "Backend connection error in realm " ++ r ++ ": " ++ e.message
  | .identityConflict r l =>
    "Identity conflict: " ++ l ++ " on both sides of a private chat in realm " ++ r
  | .malformedEntity s => "Malformed entity id: " ++ s
  | .chatNotFound c => "Chat not found: " ++ c.idText
  | .store e => "Store error: " ++ e.message
  | .eventDispatch m => "Event dispatcher error: " ++ m
  | .lockPoisoned => "Lock poisoned"

/-- An entity error met by the service. -/
def SyncError.ofEntity : EntityError → SyncError
  | .identityConflict r l => .identityConflict r l
  | .malformed s => .malformedEntity s

/-- The operations of the store the service calls. -/
inductive StoreMethod where
  | readAllChats
  | mergeUserChats
  | loadChatById
  | updateChat
  | loadParticipants
  | mergeMessages
  | loadMessages
  | countMessages
  | loadLastMessage
  | changeReadStatus
  | unreadCount
  | unreadChats
  | loadUser
  | saveUser
  | deleteAllInRealm
  deriving DecidableEq, Repr

/-- The state of the service over realms of type `β`. -/
structure Service (β : Type) where
  store : Store := {}
  caches : ChatCaches := {}
  realms : Registry β := {}
  /-- Store operations set to fail, with the message they fail with. -/
  faults : List (StoreMethod × String) := []
  /-- The events published so far, oldest first. -/
  published : List Event := []

/-- An operation of the service. -/
abbrev SyncM (β : Type) := ExceptT SyncError (StateM (Service β))

namespace Service

variable {β : Type} [Realm β]

/-- Applies events to the caches and publishes them, each followed by the
events the caches derive from it. -/
def emit (events : List Event) : SyncM β Unit :=
  for e in events do
    let s ← get
    let (caches, derived) := s.caches.apply e
    let caches := derived.foldl (fun cs d => (cs.apply d).1) caches
    set { s with caches, published := s.published ++ e :: derived }

/-- Changes the caches. -/
def withCaches (f : ChatCaches → ChatCaches) : SyncM β Unit :=
  modify fun s => { s with caches := f s.caches }

/-- Runs a store operation, or fails as set for it. -/
def tryStore {α : Type} (m : StoreMethod) (op : Store → Except StoreError (α × Store)) :
    SyncM β (Except StoreError α) := do
  let s ← get
  match (s.faults.find? (·.1 == m)).map (·.2) with
  | some msg => return .error (.io msg)
  | none =>
    match op s.store with
    | .ok (a, store) => set { s with store }; return .ok a
    | .error e => return .error e

/-- Runs a store operation that writes; its errors are the service's. -/
def write {α : Type} (m : StoreMethod) (op : Store → Except StoreError (α × Store)) : SyncM β α := do
  match ← tryStore m op with
  | .ok a => return a
  | .error e => throw (.store e)

/-- Runs a store operation that reads. -/
def read {α : Type} (m : StoreMethod) (op : Store → Except StoreError α) : SyncM β α :=
  write m fun s => (op s).map (·, s)

/-- Reads through one of the caches: a cached value, or the loader's, which
is cached unless the key was written while it ran. -/
def loadThrough {V : Type} (get : ChatCaches → KeyedCache V)
    (put : ChatCaches → KeyedCache V → ChatCaches) (key : Entity) (load : SyncM β (Option V)) :
    SyncM β (Option V) := do
  match (get (← getThe (Service β)).caches).beginLoad key with
  | .inl v => return some v
  | .inr g =>
    let loaded ← load
    let s ← getThe (Service β)
    let (c, v) := (get s.caches).finishLoad key g loaded
    set { s with caches := put s.caches c }
    return v

/-- The realm of an entity. -/
def realmOf (e : Entity) : SyncM β β := do
  match (← get).realms.find? e.realm with
  | some r => return r
  | none => throw (.unsupportedBackend e.realm)

/-- Calls a realm and keeps its state; a failure is the realm's. -/
def callRealm {α : Type} (realm : β) (call : β → Except RealmError α × β) : SyncM β α := do
  let id := Realm.id realm
  let current := ((← get).realms.find? id).getD realm
  let (r, after) := call current
  modify fun s => { s with realms := s.realms.put id after }
  match r with
  | .ok a => return a
  | .error e => throw (.backend id e)

/-- Lifts an entity error. -/
def ofEntity {α : Type} : Except EntityError α → SyncM β α
  | .ok a => pure a
  | .error e => throw (.ofEntity e)

end Service

end ChatSync
