import OxidHome.Library.Machine
import OxidHome.Library.Tables

/-!
# MCP session admission

`BoundedSessionManager` and `Admission` of `api/mcp/session_store.rs` with the live-session tier of
`admission_gate`. Sessions are numbered as the SDK mints them. `sdk` holds the sessions the SDK has
and has not removed, `closed` those for which a call of `close_session` has returned.
-/

namespace OxidHome.Api
open Library

/-- `HeaderValue::to_str` reads visible ASCII and tabs. -/
def visibleAscii (value : List UInt8) : Bool := value.all fun b => 32 ≤ b && b < 127 || b = 9

inductive PostStage where
  | arrived
  | passed
  | admitted
  | forgotten
  | finished
  deriving DecidableEq

/-- A POST. `session` is the session that the SDK created for it, `admitted` that it holds an
`Admission`, `forgotten` that `commit` has forgotten the permit and not inserted the id. -/
structure SessionPost where
  sessionHeader : Option (List UInt8)
  stage : PostStage
  session : Option Nat
  deriving DecidableEq

/-- The SDK reads a session id from the header, or creates a session. -/
def SessionPost.createsSession (post : SessionPost) : Bool :=
  !post.sessionHeader.any visibleAscii

def SessionPost.holds (post : SessionPost) : Bool :=
  post.stage = .admitted || post.stage = .forgotten

structure BoundedSessionManager where
  cap : Nat
  permits : Nat
  live : Finset Nat
  minted : Nat
  sdk : Finset Nat
  closed : Finset Nat
  posts : List SessionPost

inductive SessionAction where
  | post (sessionHeader : Option (List UInt8))
  | gate (post : Nat) (buffered : Bool)
  | createSession (post : Nat)
  | forget (post : Nat)
  | insert (post : Nat)
  | drop (post : Nat)
  | closeInner (session : Nat)
  | closeRelease (session : Nat)

namespace BoundedSessionManager

def new (cap : Nat) : BoundedSessionManager := ⟨cap, cap, ∅, 0, ∅, ∅, []⟩

def setPost (s : BoundedSessionManager) (n : Nat) (post : SessionPost) : BoundedSessionManager :=
  { s with posts := s.posts.set n post }

/-- `drop` ends a request: it is refused, or dropped at an await, or answered without a session id
on a success. `closeInner` is `LocalSessionManager::close_session`, `closeRelease` the rest of a
call whose inner call returned `Ok`. -/
def step (s : BoundedSessionManager) : SessionAction → Option BoundedSessionManager
  | .post sessionHeader => some { s with posts := s.posts ++ [⟨sessionHeader, .arrived, none⟩] }
  | .gate n buffered =>
      match s.posts[n]? with
      | some ⟨header, .arrived, session⟩ =>
          if !buffered then some (s.setPost n ⟨header, .finished, session⟩)
          else if header.isSome then some (s.setPost n ⟨header, .passed, session⟩)
          else if s.permits = 0 then some (s.setPost n ⟨header, .finished, session⟩)
          else some { s.setPost n ⟨header, .admitted, session⟩ with permits := s.permits - 1 }
      | _ => none
  | .createSession n =>
      match s.posts[n]? with
      | some post =>
          if (post.stage = .passed ∨ post.stage = .admitted) ∧ post.session = none ∧
              post.createsSession then
            some { s.setPost n { post with session := some s.minted } with
              minted := s.minted + 1, sdk := insert s.minted s.sdk }
          else none
      | none => none
  | .forget n =>
      match s.posts[n]? with
      | some ⟨header, .admitted, some session⟩ =>
          some (s.setPost n ⟨header, .forgotten, some session⟩)
      | _ => none
  | .insert n =>
      match s.posts[n]? with
      | some ⟨header, .forgotten, some session⟩ =>
          some { s.setPost n ⟨header, .finished, some session⟩ with live := insert session s.live }
      | _ => none
  | .drop n =>
      match s.posts[n]? with
      | some ⟨header, .arrived, session⟩ => some (s.setPost n ⟨header, .finished, session⟩)
      | some ⟨header, .passed, session⟩ => some (s.setPost n ⟨header, .finished, session⟩)
      | some ⟨header, .admitted, session⟩ =>
          some { s.setPost n ⟨header, .finished, session⟩ with permits := s.permits + 1 }
      | _ => none
  | .closeInner session =>
      if session < s.minted then some { s with sdk := s.sdk.erase session } else none
  | .closeRelease session =>
      if session < s.minted ∧ session ∉ s.sdk then
        some { s with
          live := s.live.erase session
          permits := if session ∈ s.live then s.permits + 1 else s.permits
          closed := insert session s.closed }
      else none

structure Accounted (s : BoundedSessionManager) : Prop where
  capped : s.sdk.card ≤ s.cap
  returned : (∀ post ∈ s.posts, post.stage = .finished) → (∀ session < s.minted, session ∈ s.closed) →
    s.permits = s.cap

/-- The step loses track of a session: one without an admission is created, an admission is dropped
while its session is there, or a session that is closed enters the set. -/
def Untracks (s : BoundedSessionManager) : SessionAction → Prop
  | .createSession n => ∃ post, s.posts[n]? = some post ∧ post.stage = .passed
  | .drop n => ∃ header session, s.posts[n]? = some ⟨header, .admitted, some session⟩ ∧
      session ∈ s.sdk
  | .insert n => ∃ post session, s.posts[n]? = some post ∧ post.session = some session ∧
      session ∈ s.closed
  | _ => False

end BoundedSessionManager
end OxidHome.Api
