import ChatSync.Realm

/-!
# Scripted realms

A realm that answers from lists it is given and records every call, for
driving the service through chosen situations. Each kind of call can be set
to fail. Opening a private chat numbers the chats it opens: in the local id
and backend id of its template, `{n}` stands for that number.
-/

namespace ChatSync

/-- The kinds of realm calls, for choosing which ones fail. -/
inductive RealmOp where
  | fetchAll
  | fetchNewer
  | fetchOlder
  | createPrivate
  deriving DecidableEq, Repr

/-- How a scripted realm shapes the private chats it opens. -/
structure ChatTemplate where
  /-- The local id of the chat instead of the derived one. -/
  localId : Option String := none
  /-- The backend id given to the chat. -/
  backend : Option String := none
  isPrivate : Bool := true
  title : Option String := none
  deriving DecidableEq, Repr

/-- A realm answering from given lists. -/
structure ScriptedRealm where
  id : String
  user : User
  all : List Message := []
  newer : List Message := []
  older : List Message := []
  failures : List (RealmOp × RealmError) := []
  template : ChatTemplate := {}
  /-- How many private chats it has opened. -/
  opened : Nat := 0
  /-- The calls made so far, oldest first. -/
  log : List RealmRequest := []

namespace ScriptedRealm

/-- Replaces every `{n}` in a text by a number. -/
def numbered (s : String) (n : Nat) : String :=
  let rec go : List Char → List Char
    | '{' :: 'n' :: '}' :: rest => Nat.toDigits 10 n ++ go rest
    | c :: rest => c :: go rest
    | [] => []
  String.ofList (go s.toList)

/-- Records a call and answers it, unless its kind is set to fail. -/
def answer {α : Type} (r : ScriptedRealm) (req : RealmRequest) (op : RealmOp) (a : α) :
    Except RealmError α × ScriptedRealm :=
  let r := { r with log := r.log ++ [req] }
  match (r.failures.find? (·.1 == op)).map (·.2) with
  | some e => (.error e, r)
  | none => (.ok a, r)

/-- Opens a private chat after the template. -/
def openChat (r : ScriptedRealm) (derived : Entity) (userA userB : String) :
    Except RealmError Chat × ScriptedRealm :=
  let r := { r with log := r.log ++ [.createPrivate derived userA userB] }
  match (r.failures.find? (·.1 == RealmOp.createPrivate)).map (·.2) with
  | some e => (.error e, r)
  | none =>
    let n := r.opened + 1
    let e := match r.template.localId with
      | some l => derived.sibling (numbered l n)
      | none => derived
    let e := match r.template.backend with
      | some b => e.withBackend (numbered b n)
      | none => e
    (.ok { entity := e, isPrivate := r.template.isPrivate, title := r.template.title },
      { r with opened := n })

instance : Realm ScriptedRealm where
  id r := r.id
  user r := r.user
  fetchAll r account := r.answer (.fetchAll account) .fetchAll r.all
  fetchNewer r chat account since := r.answer (.fetchNewer chat account since) .fetchNewer r.newer
  fetchOlder r chat account offset := r.answer (.fetchOlder chat account offset) .fetchOlder r.older
  createPrivate r derived a b := r.openChat derived a b

end ScriptedRealm

end ChatSync
