/-!
# Entities

Every user, chat and message is named by an entity: the realm (the backend
it lives on), the account within the realm and its id local to that
account. A realm may know the object under an id of its own, the backend
id; it travels with the entity but takes no part in its identity.

An entity's id text joins realm, account and local id with `/`. A private
chat's local id joins the local ids of its two participants with `:`, the
owner of the account first.

Renaming an entity keeps or sets its identity as `key_withBackend` and
`key_sibling` say.
-/

namespace ChatSync

/-- The part of an entity that makes up its identity. -/
structure EntityKey where
  realm : String
  account : String
  localId : String
  deriving DecidableEq, Repr, Hashable

/-- The name of a user, chat or message: realm, account, local id, and the
backend's own id when it differs from the local id. -/
structure Entity where
  realm : String
  account : String
  localId : String
  backend : Option String := none
  deriving DecidableEq, Repr

/-- Why an entity cannot be formed. -/
inductive EntityError where
  /-- An id text without three nonempty parts. -/
  | malformed (text : String)
  /-- Both sides of a private chat are the same local id. -/
  | identityConflict (realm localId : String)
  deriving DecidableEq, Repr

/-- The sentence that describes the error. -/
def EntityError.message : EntityError → String
  | .malformed s => "Malformed entity id: " ++ s
  | .identityConflict realm l =>
    "Identity conflict: both participants resolve to " ++ l ++ " in realm " ++ realm

namespace EntityKey

/-- Keys order by realm, then account, then local id, each by code points. -/
def le (a b : EntityKey) : Bool :=
  a.realm < b.realm || (a.realm = b.realm &&
    (a.account < b.account || (a.account = b.account && decide (a.localId ≤ b.localId))))

end EntityKey

namespace Entity

/-- The entity with no backend id. -/
def make (realm account localId : String) : Entity := { realm, account, localId }

/-- The identity of the entity. -/
def key (e : Entity) : EntityKey := ⟨e.realm, e.account, e.localId⟩

/-- Two entities name the same object when their realm, account and local id agree. -/
def same (a b : Entity) : Bool := a.key == b.key

/-- The id the backend knows the object by: its backend id, else its local id. -/
def backendId (e : Entity) : String := e.backend.getD e.localId

/-- Whether the entity carries a backend id of its own. -/
def hasBackendId (e : Entity) : Bool := e.backend.isSome

/-- Sets the backend id; one equal to the local id is no backend id. -/
def withBackend (e : Entity) (b : String) : Entity :=
  { e with backend := if b = e.localId then none else some b }

/-- Another object of the same realm and account, with no backend id. -/
def sibling (e : Entity) (localId : String) : Entity := make e.realm e.account localId

/-- Whether the entity lives in the realm. -/
def inRealm (e : Entity) (realm : String) : Bool := e.realm == realm

/-- The id text: realm, account and local id joined by `/`. -/
def idText (e : Entity) : String := e.realm ++ "/" ++ e.account ++ "/" ++ e.localId

/-- The entity of a private chat between `me` and `other`, in the realm and
account of `me`. The two must have different local ids. -/
def privateChat (me other : Entity) : Except EntityError Entity :=
  if me.localId = other.localId then .error (.identityConflict me.realm me.localId)
  else .ok (me.sibling (me.localId ++ ":" ++ other.localId))

/-- Splits a list at the first occurrence of a character. -/
def splitAtFirst (c : Char) (cs : List Char) : Option (List Char × List Char) :=
  match cs.span (· ≠ c) with
  | (_, []) => none
  | (a, _ :: b) => some (a, b)

/-- The two participants named by a private chat's local id: the parts before
and after its first `:`, both nonempty. -/
def privateParticipants? (e : Entity) : Option (String × String) := do
  let (a, b) ← splitAtFirst ':' e.localId.toList
  if a.isEmpty || b.isEmpty then none else some (String.ofList a, String.ofList b)

/-- Two entities name one conversation when they are in one realm and either
name the same two participants of a private chat, in either order, or are
the same entity. -/
def sameConversation (a b : Entity) : Bool :=
  a.realm == b.realm &&
    match a.privateParticipants?, b.privateParticipants? with
    | some (a1, b1), some (a2, b2) => (a1 == a2 && b1 == b2) || (a1 == b2 && b1 == a2)
    | _, _ => a.same b

/-- Reads an id text: up to the first `/` is the realm, up to the next the
account, the rest the local id; all three must be nonempty. -/
def parse (s : String) : Except EntityError Entity :=
  match splitAtFirst '/' s.toList with
  | none => .error (.malformed s)
  | some (r, rest) =>
    match splitAtFirst '/' rest with
    | none => .error (.malformed s)
    | some (a, l) =>
      if r.isEmpty || a.isEmpty || l.isEmpty then .error (.malformed s)
      else .ok (make (String.ofList r) (String.ofList a) (String.ofList l))

@[simp] theorem key_withBackend (e : Entity) (b : String) : (e.withBackend b).key = e.key := rfl

@[simp] theorem key_sibling (e : Entity) (l : String) :
    (e.sibling l).key = ⟨e.realm, e.account, l⟩ := rfl

example : (make "xmpp" "xmpp~0" "me:bob").privateParticipants? = some ("me", "bob") := by decide
example : (parse "a/b/c/d").toOption = some (make "a" "b" "c/d") := by decide
example : (parse "xmpp/xmpp~0/").toOption = none := by decide

end Entity

end ChatSync
