import Matchmaking.Store.Basic
import Matchmaking.Photo.Link
/-! Every request of the engine answered from a store, in one step. -/
namespace Matchmaking

/-- What answers depend on besides the store. -/
structure Surroundings where
  /-- The index that chance gives below a count. -/
  index : Nat → Nat := fun _ => 0
  photoBase : String
  /-- Notifications are delivered. -/
  notifierUp : Bool := true

namespace Store

def photoLink (base key : String) : Except StoreError String :=
  (Photo.link? base key).elim (.error (.malformed "empty photo key")) .ok

def notify (s : Store) (up : Bool) (kind : NoticeKind) (receiver : UserId) (notice : Notice) :
    Bool × Store :=
  (up, s.recordDelivery ⟨kind, receiver, notice, up⟩)

/-- The reply to a request and the store after it. -/
def serve (around : Surroundings) (s : Store) : (r : Request) → r.Reply × Store
  | .profile u => (.ok (s.profileOf? u), s)
  | .preferences u => (.ok (s.preferencesOf? u), s)
  | .validUsers => (.ok s.validUsers, s)
  | .createAttempt u v => s.createAttempt u v
  | .pendingOfPair u v => (.ok (s.pendingOfPair? u v), s)
  | .latestOfPair u v => (.ok (s.latestOfPair? u v), s)
  | .finishAttempt a state => s.finishAttempt a state
  | .pendingOf u => (.ok (s.pendingOf u), s)
  | .likerOf u => (.ok (s.likerOf? u), s)
  | .appendEvent a h => let (e, s) := s.appendEvent a h; (.ok e, s)
  | .lastEvent a => (.ok (s.lastEvent? a), s)
  | .photos u => (.ok (s.photosOf u), s)
  | .photoLink key => (photoLink around.photoBase key, s)
  | .createChat u v => let (c, s) := s.createChat u v; (.ok c, s)
  | .notifyLiked u notice => s.notify around.notifierUp .liked u notice
  | .notifyMatch u notice => s.notify around.notifierUp .matched u notice
  | .index count => (around.index count, s)
  | .health => (true, s)

/-- Runs a program to its end, every request answered at once. -/
def run {α : Type} (around : Surroundings) (s : Store) : Program α → Except MatchError α × Store
  | .done a => (.ok a, s)
  | .fail e => (.error e, s)
  | .call r k => let (reply, s) := s.serve around r; s.run around (k reply)

end Store
end Matchmaking
