import Matchmaking.Record.People
import Matchmaking.Attempt.Basic
import Matchmaking.Time.Rfc3339
/-! The JSON forms of attempts, events, chats, showcases and notices. -/
namespace Matchmaking

open Json (Record natBelow nullable named)
open Json.Record (needs may)

namespace Timestamp

def toJson (t : Timestamp) : Json := .text t.text

def ofJson : Json → Json.Decoded Timestamp
  | .text s => (read? s.toList).elim (.error .invalid) .ok
  | _ => .error .invalid

end Timestamp

namespace State

def toJson : State → Json := Json.ofName name

def ofJson : Json → Json.Decoded State := named ofName?

end State

namespace Happening

def toJson : Happening → Json := Json.ofName name

def ofJson : Json → Json.Decoded Happening := named ofName?

end Happening

namespace Verdict

def toJson : Verdict → Json := Json.ofName name

def ofJson : Json → Json.Decoded Verdict := named ofName?

end Verdict

namespace Attempt

def toJson (a : Attempt) : Json :=
  Json.ofFields [("id", .ofNat a.id), ("user1", .ofNat a.first), ("user2", .ofNat a.second),
    ("state", a.state.toJson), ("created_at", a.createdAt.toJson)]

def fields : Record Attempt :=
  Attempt.mk <$> needs "id" Json.id <*> needs "user1" Json.id <*> needs "user2" Json.id <*>
    needs "state" State.ofJson <*> needs "created_at" Timestamp.ofJson

def ofJson : Json → Json.Decoded Attempt := fields.decode

end Attempt

namespace Event

def toJson (e : Event) : Json :=
  Json.ofFields [("id", .ofNat e.id), ("attempt_id", .ofNat e.attempt),
    ("created_at", e.createdAt.toJson), ("event_type", e.happening.toJson)]

def fields : Record Event :=
  Event.mk <$> needs "id" Json.id <*> needs "attempt_id" Json.id <*>
    needs "created_at" Timestamp.ofJson <*> needs "event_type" Happening.ofJson

def ofJson : Json → Json.Decoded Event := fields.decode

end Event

namespace Chat

def toJson (c : Chat) : Json :=
  Json.ofFields [("id", .ofNat c.id), ("user1", .ofNat c.first), ("user2", .ofNat c.second)]

def fields : Record Chat :=
  Chat.mk <$> needs "id" Json.id <*> needs "user1" Json.id <*> needs "user2" Json.id

def ofJson : Json → Json.Decoded Chat := fields.decode

end Chat

namespace Photo

def toJson (p : Photo) : Json := Json.ofFields [("key", .text p.key), ("link", .text p.link)]

def fields : Record Photo :=
  Photo.mk <$> needs "key" Json.string <*> needs "link" Json.string

def ofJson : Json → Json.Decoded Photo := fields.decode

end Photo

namespace Notice

def toJson (n : Notice) : Json := Json.ofFields [("name", .text n.name), ("photo", .text n.photo)]

def fields : Record Notice :=
  Notice.mk <$> needs "name" Json.string <*> needs "photo" Json.string

def ofJson : Json → Json.Decoded Notice := fields.decode

end Notice

variable (form : FloatForm)

namespace Showcase

def toJson (s : Showcase) : Json :=
  Json.ofFields [("profile", s.profile.toJson form), ("photos", .array (s.photos.map Photo.toJson))]

def fields : Record Showcase :=
  Showcase.mk <$> needs "profile" (Profile.ofJson form) <*>
    needs "photos" (Json.list Photo.ofJson)

def ofJson : Json → Json.Decoded Showcase := (fields form).decode

end Showcase
end Matchmaking
