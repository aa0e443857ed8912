import SchemaForge.Json.Record
import SchemaForge.Schema.Records

/-!
# Who makes a request
-/

namespace SchemaForge

open Json

/-- Whether the one who makes a request is signed in, and as whom. -/
inductive AuthState
  | anonymous
  | authenticated (user : UserId)
  deriving DecidableEq, Repr

namespace AuthState

/-- The state of a user who may be there. -/
def ofUser? : Option UserId → AuthState
  | none => anonymous
  | some user => authenticated user

/-- The user who is signed in. -/
def user? : AuthState → Option UserId
  | anonymous => none
  | authenticated user => some user

/-- The members beside the mode of a user who is signed in. -/
def userFields : Fields (UserId × Unit) := .field (.required "user_id" .word64) .done

/-- The cases, told apart by their mode. -/
def cases : List (Variant AuthState) :=
  [.ofUnit "anonymous" anonymous,
    .ofFields "authenticated" "struct variant AuthState::Authenticated" userFields
      fun (user, ()) => authenticated user]

/-- The JSON form of a state. -/
def codec : Codec AuthState where
  encode
    | anonymous => .object [("mode", .text "anonymous")]
    | authenticated user =>
      .object (("mode", .text "authenticated") :: userFields.write (user, ()))
  decode := decodeTagged "internally tagged enum AuthState" "mode" cases

end AuthState

end SchemaForge
