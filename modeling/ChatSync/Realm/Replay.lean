import ChatSync.Realm

/-!
# Replay realms

A realm that plays back a recorded dump of one account: its user, the chats
the backend reported and every message the account could see. Newer
messages of a chat are those sent after the given time; older ones come
newest first, fifty to a page. A private chat it opens gets a fresh backend
room id `dm-` followed by a version 4 UUID.

The UUIDs are drawn from a splitmix64 stream seeded by the realm's series
number, so a run is reproducible and realms that serve side by side draw
from different streams. A drawn UUID that some text the realm knows already
holds (the recording, the chat being opened, the two users) is passed over,
so a room id never repeats an id it is shown next to.
-/

namespace ChatSync

/-- A recorded account. -/
structure Dump where
  account : User
  chats : List ChatBundle := []
  messages : List Message := []

/-- A realm playing back a dump, with its series number and how many UUIDs
it has drawn. -/
structure ReplayRealm where
  dump : Dump
  series : Nat := 0
  drawn : Nat := 0

namespace ReplayRealm

/-- Messages per page of older messages. -/
def pageSize : Nat := 50

/-- The lowercase hexadecimal digits of a number, at least `width` of them. -/
def hexDigits (width n : Nat) : List Char :=
  let ds := Nat.toDigits 16 n
  List.replicate (width - ds.length) '0' ++ ds

/-- The `i`-th word of the splitmix64 stream seeded with `seed`. -/
def word (seed i : Nat) : Nat :=
  let x : UInt64 := (seed.toUInt64 + i.toUInt64 + 1) * 0x9E3779B97F4A7C15
  let x := (x ^^^ (x >>> 30)) * 0xBF58476D1CE4E5B9
  let x := (x ^^^ (x >>> 27)) * 0x94D049BB133111EB
  let x := x ^^^ (x >>> 31)
  x.toNat

/-- The hyphens of a UUID: after the 8th, 12th, 16th and 20th digit. -/
def hyphenate (ds : List Char) : List Char :=
  ds.take 8 ++ '-' :: (ds.drop 8).take 4 ++ '-' :: (ds.drop 12).take 4 ++ '-' ::
    (ds.drop 16).take 4 ++ '-' :: ds.drop 20

/-- The `i`-th UUID a series draws: two words of its stream as 32 hex
digits, with the version digit set to 4 and the variant digit to one of
8, 9, a, b. -/
def uuid (series i : Nat) : String :=
  let ds := hexDigits 16 (word series (2 * i)) ++ hexDigits 16 (word series (2 * i + 1))
  let variant := Nat.digitChar (8 + ((ds.getD 16 '0').toNat - '0'.toNat) % 4)
  String.ofList (hyphenate ((ds.set 12 '4').set 16 variant))

/-- Whether a text holds another one. -/
def holds (text part : List Char) : Bool :=
  (List.range (text.length + 1)).any fun i => (text.drop i).take part.length == part

/-- From the `i`-th on, the first UUID of a series that no avoided text
holds, with its index; `fuel` bounds the search. -/
def freshUuid (series : Nat) (avoid : List String) : Nat → Nat → Nat × String
  | 0, i => (i, uuid series i)
  | fuel + 1, i =>
    let u := uuid series i
    if avoid.any fun t => holds t.toList u.toList then freshUuid series avoid fuel (i + 1)
    else (i, u)

/-- The texts of an entity. -/
def entityTexts (e : Entity) : List String := [e.realm, e.account, e.localId] ++ e.backend.toList

/-- Every text a recording holds: ids, names, titles and bodies. -/
def dumpTexts (d : Dump) : List String :=
  let user (u : User) := entityTexts u.entity ++ u.displayName.toList
  let message (m : Message) := entityTexts m.entity ++ entityTexts m.chat ++ entityTexts m.author ++
    (m.recipient.map entityTexts).getD [] ++ [m.body]
  user d.account ++ d.chats.flatMap (fun b => entityTexts b.chat.entity ++ b.chat.title.toList ++
    b.participants.flatMap user ++ b.messages.flatMap message) ++ d.messages.flatMap message

/-- The messages of the chat with a backend id. -/
def messagesOf (r : ReplayRealm) (chat : String) : List Message :=
  r.dump.messages.filter (·.chat.backendId == chat)

instance : Realm ReplayRealm where
  id r := r.dump.account.entity.realm
  user r := r.dump.account
  fetchAll r _ := (.ok r.dump.messages, r)
  fetchNewer r chat _ since :=
    (.ok ((r.messagesOf chat).filter fun m => since.all fun t => t.cmp m.sentAt == .lt), r)
  fetchOlder r chat _ offset :=
    let history := sortStable (fun a b => b.chronological a != .gt) (r.messagesOf chat)
    (.ok ((history.drop offset).take pageSize), r)
  createPrivate r derived a b :=
    if a == b then (.error (.rejected ("cannot open a chat between " ++ a ++ " and itself")), r)
    else
      let avoid := entityTexts derived ++ [a, b] ++ dumpTexts r.dump
      let fuel := avoid.foldl (fun n t => n + t.length) 1
      let (i, u) := freshUuid r.series avoid fuel r.drawn
      (.ok (Chat.ofPrivate (derived.sibling ("dm-" ++ u))), { r with drawn := i + 1 })

end ReplayRealm

end ChatSync
