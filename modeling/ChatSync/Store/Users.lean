import ChatSync.Store.Basic

/-!
# Stored users

A user is written when it differs from the stored one. A missing display
name never erases a known one: realms often report participants by id only.
-/

namespace ChatSync.Store

/-- The stored user of an entity. -/
def loadUser (s : Store) (e : Entity) : Option User :=
  (s.users.find? (·.id == e.idText)).map UserRow.toUser

/-- Writes a user unless the stored one already has its display name (or the
user brings none) and its backend id. Returns whether the row changed. -/
def upsertUser (u : User) : StoreM Bool := do
  let s ← get
  let existing := s.loadUser u.entity
  let displayName := u.displayName <|> existing.bind (·.displayName)
  match existing with
  | some old =>
    if old.displayName == displayName && old.entity.backendId == u.entity.backendId then
      return false
    else
      set { s with users := s.users.map fun (r : UserRow) =>
        if r.id == u.entity.idText then
          { r with backend := backendColumn u.entity, displayName := displayName }
        else r }
      return true
  | none =>
    let row : UserRow :=
      { id := u.entity.idText, realm := u.entity.realm, account := u.entity.account,
        localId := u.entity.localId, backend := backendColumn u.entity, displayName }
    set { s with users := s.users ++ [row] }
    return true

/-- Saves a user; returns whether the stored user changed. -/
def saveUser (s : Store) (u : User) : Except StoreError (Bool × Store) :=
  s.commit (upsertUser u)

end ChatSync.Store
