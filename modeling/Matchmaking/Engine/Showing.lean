import Matchmaking.Engine.Program
/-! How people are shown: to the one who asks, with all photos, and in notifications, with the
first one. -/
namespace Matchmaking
namespace Engine
open Program

def linkPhotos : List String → Program (List Photo)
  | [] => pure []
  | key :: rest => do
    let link ← expect "can't make profile photo link" (← send (.photoLink key))
    return ⟨key, link⟩ :: (← linkPhotos rest)

/-- The profile of a person with links to all photos. -/
def showcase (user : UserId) : Program Showcase := do
  let some profile ← expect "can't get profile" (← send (.profile user))
    | .fail (.internal "can't get profile" (.missingProfile user))
  let keys ← expect "can't get user photos" (← send (.photos user))
  return ⟨profile, ← linkPhotos keys⟩

/-- The name and the first photo of a person, for a notification sent to another one. -/
def partnerNotice (user : UserId) : Program Notice := do
  let profile ← expect "can't get profile" (← send (.profile user))
  let name := profile.elim "" Profile.name
  match ← expect "can't get user photos" (← send (.photos user)) with
  | [] => return ⟨name, ""⟩
  | key :: _ => return ⟨name, ← expect "can't make profile photo link" (← send (.photoLink key))⟩

end Engine
end Matchmaking
