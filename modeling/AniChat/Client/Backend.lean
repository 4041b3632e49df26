import AniChat.Client.ChatClient
import AniChat.Client.LoginClient

/-!
# The backend of all clients

The chat's world and the services of registration are one Firebase project: they share Auth. Who is
signed in on a client changes in both at once, by a sign-in or sign-out and by an account that
`register` creates; everything else is an event of one side.
-/

namespace AniChat

open Automata

/-- The event says who is signed in. -/
def World.Event.isAuth : World.Event → Bool
  | .auth _ _ => true
  | _ => false

/-- The event says who is signed in, and is not of `register`. -/
def Services.Event.isAuth : Services.Event → Bool
  | .auth _ _ => true
  | _ => false

/-- The user that an account created by `register` signs in. -/
def Services.Event.signsIn : Services.Event → Option (ClientId × Uid)
  | .createUser id uid none => some (id.client, uid)
  | _ => none

namespace Backend

inductive Event where
  | auth (c : ClientId) (user : Option Uid)
  | world (e : { e : World.Event // e.isAuth = false })
  | services (e : { e : Services.Event // e.isAuth = false })

/-- What the world sees of an event. -/
def inWorld : Event → Option World.Event
  | .auth c user => some (.auth c user)
  | .world e => some e
  | .services e => e.1.signsIn.map fun signedIn => .auth signedIn.1 (some signedIn.2)

/-- What the services see of it. -/
def inServices : Event → Option Services.Event
  | .auth c user => some (.auth c user)
  | .world _ => none
  | .services e => some e

/-- The world and the services, moving together. -/
def machine : Machine (World × Services) Event :=
  Machine.sync World.machine Services.machine inWorld inServices

def initial : World × Services := (.initial, .initial)

end Backend

end AniChat
