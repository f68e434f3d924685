import OxidHome.Api.SessionStore

/-!
# Session accounting

A slot is a free permit, an `Admission` or an id in the live set, and every session of the SDK has
one as long as no step loses track of it.
-/

namespace OxidHome.Api
open Library

namespace BoundedSessionManager

structure Sound (s : BoundedSessionManager) : Prop where
  balance : s.permits + s.posts.countP SessionPost.holds + s.live.card = s.cap
  covered : ∀ session ∈ s.sdk, session ∈ s.live ∨
    ∃ (n : Nat) (post : SessionPost), s.posts[n]? = some post ∧ post.holds = true ∧
      post.session = some session
  unclosed : ∀ session ∈ s.live, session ∉ s.closed
  known : ∀ session ∈ s.live, session < s.minted
  early : ∀ (n : Nat) (post : SessionPost), s.posts[n]? = some post → post.stage = .arrived →
    post.session = none
  minted : ∀ (n : Nat) (post : SessionPost), s.posts[n]? = some post → ∀ session,
    post.session = some session → session < s.minted
  unique : ∀ (m n : Nat) (a b : SessionPost), s.posts[m]? = some a → s.posts[n]? = some b →
    ∀ session, a.session = some session → b.session = some session → m = n
  unlisted : ∀ (n : Nat) (post : SessionPost), s.posts[n]? = some post → post.holds = true →
    ∀ session, post.session = some session → session ∉ s.live

structure Restaged (s t : BoundedSessionManager) (n : Nat) (before after : SessionPost) : Prop where
  found : s.posts[n]? = some before
  posts : t.posts = s.posts.set n after
  session : after.session = before.session
  left : after.stage ≠ .arrived
  cap : t.cap = s.cap
  minted : t.minted = s.minted
  sdk : t.sdk = s.sdk
  closed : t.closed = s.closed
  slots : t.permits + t.live.card + (if after.holds then 1 else 0) =
    s.permits + s.live.card + if before.holds then 1 else 0
  grown : s.live ⊆ t.live
  entered : ∀ session ∈ t.live, session ∈ s.live ∨
    session ∉ s.closed ∧ before.session = some session ∧ after.holds = false
  kept : before.holds = true → ∀ session ∈ s.sdk, before.session = some session →
    after.holds = true ∨ session ∈ t.live
  fresh : after.holds = true → before.holds = true ∨ before.session = none

variable {s t : BoundedSessionManager} {n : Nat}

theorem Restaged.session_eq {before after : SessionPost} (moved : Restaged s t n before after)
    {m : Nat} {post : SessionPost} (row : t.posts[m]? = some post) :
    ∃ old, s.posts[m]? = some old ∧ old.session = post.session := by
  rw [moved.posts] at row
  rcases (row_set moved.found).mp row with ⟨rfl, rfl⟩ | ⟨-, row⟩
  · exact ⟨before, moved.found, moved.session.symm⟩
  · exact ⟨post, row, rfl⟩

theorem Restaged.sound {before after : SessionPost} (moved : Restaged s t n before after)
    (sound : s.Sound) : t.Sound := by
  constructor
  case balance =>
    have holding := countP_row_set (a := after) SessionPost.holds moved.found
    have slots := moved.slots
    have balance := sound.balance
    rw [moved.posts, moved.cap]
    omega
  case covered =>
    rw [moved.sdk, moved.posts]
    intro session there
    rcases sound.covered session there with listed | ⟨m, post, row, holds, named⟩
    · exact .inl (moved.grown listed)
    · by_cases same : n = m
      · subst same
        obtain rfl : before = post := Option.some.inj (moved.found.symm.trans row)
        rcases moved.kept holds session there named with still | listed
        · exact .inr ⟨n, after, (row_set moved.found).mpr (.inl ⟨rfl, rfl⟩), still,
            moved.session.trans named⟩
        · exact .inl listed
      · exact .inr ⟨m, post, (row_set moved.found).mpr (.inr ⟨same, row⟩), holds, named⟩
  case unclosed =>
    rw [moved.closed]
    intro session listed
    rcases moved.entered session listed with old | ⟨unclosed, -, -⟩
    · exact sound.unclosed session old
    · exact unclosed
  case known =>
    rw [moved.minted]
    intro session listed
    rcases moved.entered session listed with old | ⟨-, named, -⟩
    · exact sound.known session old
    · exact sound.minted n before moved.found session named
  case early =>
    rw [moved.posts]
    intro m post row arrived
    rcases (row_set moved.found).mp row with ⟨rfl, rfl⟩ | ⟨-, row⟩
    · exact absurd arrived moved.left
    · exact sound.early m post row arrived
  case minted =>
    rw [moved.minted]
    intro m post row session named
    obtain ⟨old, row, same⟩ := moved.session_eq row
    exact sound.minted m old row session (same.trans named)
  case unique =>
    intro i j a b rowA rowB session namedA namedB
    obtain ⟨oldA, rowA, sameA⟩ := moved.session_eq rowA
    obtain ⟨oldB, rowB, sameB⟩ := moved.session_eq rowB
    exact sound.unique i j oldA oldB rowA rowB session (sameA.trans namedA) (sameB.trans namedB)
  case unlisted =>
    rw [moved.posts]
    intro m post row holds session named listed
    rcases (row_set moved.found).mp row with ⟨rfl, rfl⟩ | ⟨other, row⟩
    · have named' : before.session = some session := moved.session.symm.trans named
      rcases moved.entered session listed with old | ⟨-, -, gone⟩
      · rcases moved.fresh holds with held | none
        · exact sound.unlisted n before moved.found held session named' old
        · rw [none] at named'
          cases named'
      · rw [holds] at gone
        cases gone
    · rcases moved.entered session listed with old | ⟨-, named', -⟩
      · exact sound.unlisted m post row holds session named old
      · exact other (sound.unique n m before post moved.found row session named' named)

theorem new_sound (cap : Nat) : (new cap).Sound where
  balance := by simp [new]
  covered := by simp [new]
  unclosed := by simp [new]
  known := by simp [new]
  early := by simp [new]
  minted := by simp [new]
  unique := by simp [new]
  unlisted := by simp [new]

theorem accounted (sound : s.Sound) : s.Accounted := by
  constructor
  case capped =>
    let owners := ((s.posts.filter SessionPost.holds).filterMap SessionPost.session).toFinset
    have owned : s.sdk ⊆ s.live ∪ owners := by
      intro session there
      rcases sound.covered session there with listed | ⟨m, post, row, holds, named⟩
      · exact Finset.mem_union_left _ listed
      · apply Finset.mem_union_right
        rw [List.mem_toFinset, List.mem_filterMap]
        exact ⟨post, List.mem_filter.mpr ⟨List.mem_of_getElem? row, holds⟩, named⟩
    have few : owners.card ≤ s.posts.countP SessionPost.holds := by
      rw [List.countP_eq_length_filter]
      exact (List.toFinset_card_le _).trans (List.length_filterMap_le _ _)
    have balance := sound.balance
    calc s.sdk.card ≤ (s.live ∪ owners).card := Finset.card_le_card owned
      _ ≤ s.live.card + owners.card := Finset.card_union_le _ _
      _ ≤ s.cap := by omega
  case returned =>
    intro finished closed
    have none : s.posts.countP SessionPost.holds = 0 := by
      rw [List.countP_eq_zero]
      intro post mem
      simp [SessionPost.holds, finished post mem]
    have empty : s.live = ∅ := by
      rw [Finset.eq_empty_iff_forall_notMem]
      intro session listed
      exact sound.unclosed session listed (closed session (sound.known session listed))
    have balance := sound.balance
    rw [none, empty, Finset.card_empty] at balance
    exact balance

theorem post_sound (sound : s.Sound) (header : Option (List UInt8)) :
    Sound { s with posts := s.posts ++ [⟨header, .arrived, none⟩] } := by
  have old : ∀ (m : Nat) (post : SessionPost),
      (s.posts ++ [⟨header, .arrived, none⟩])[m]? = some post → post.session ≠ none ∨
        post.holds = true → s.posts[m]? = some post := by
    intro m post row there
    rcases row_concat.mp row with row | ⟨rfl, rfl⟩
    · exact row
    · rcases there with there | there
      · exact absurd rfl there
      · cases there
  constructor
  case balance =>
    have balance := sound.balance
    simpa [List.countP_append, SessionPost.holds] using balance
  case covered =>
    intro session there
    rcases sound.covered session there with listed | ⟨m, post, row, rest⟩
    · exact .inl listed
    · exact .inr ⟨m, post, row_concat.mpr (.inl row), rest⟩
  case unclosed => exact sound.unclosed
  case known => exact sound.known
  case early =>
    intro m post row arrived
    rcases row_concat.mp row with row | ⟨rfl, rfl⟩
    · exact sound.early m post row arrived
    · rfl
  case minted =>
    intro m post row session named
    exact sound.minted m post (old m post row (.inl (by simp [named]))) session named
  case unique =>
    intro i j a b rowA rowB session namedA namedB
    exact sound.unique i j a b (old i a rowA (.inl (by simp [namedA])))
      (old j b rowB (.inl (by simp [namedB]))) session namedA namedB
  case unlisted =>
    intro m post row holds
    exact sound.unlisted m post (old m post row (.inr holds)) holds

theorem create_sound (sound : s.Sound) {post : SessionPost} (found : s.posts[n]? = some post)
    (admitted : post.stage = .admitted) (fresh : post.session = none) :
    Sound { s.setPost n { post with session := some s.minted } with
      minted := s.minted + 1, sdk := insert s.minted s.sdk } := by
  have session_cases : ∀ (m : Nat) (after : SessionPost),
      (s.posts.set n { post with session := some s.minted })[m]? = some after →
        ∀ session, after.session = some session →
          m = n ∧ session = s.minted ∨ m ≠ n ∧ s.posts[m]? = some after ∧ session < s.minted := by
    intro m after row session named
    rcases (row_set found).mp row with ⟨rfl, rfl⟩ | ⟨other, row⟩
    · exact .inl ⟨rfl, (Option.some.inj named).symm⟩
    · exact .inr ⟨other.symm, row, sound.minted m after row session named⟩
  constructor
  case balance =>
    have holding :=
      countP_row_set (a := { post with session := some s.minted }) SessionPost.holds found
    have keeps : SessionPost.holds { post with session := some s.minted } = post.holds := rfl
    have balance := sound.balance
    rw [keeps] at holding
    simp only [setPost]
    omega
  case covered =>
    intro session there
    rcases Finset.mem_insert.mp there with rfl | there
    · refine .inr ⟨n, _, (row_set found).mpr (.inl ⟨rfl, rfl⟩), ?_, rfl⟩
      simp [SessionPost.holds, admitted]
    · rcases sound.covered session there with listed | ⟨m, owner, row, holds, named⟩
      · exact .inl listed
      · have other : n ≠ m := by
          rintro rfl
          obtain rfl : post = owner := Option.some.inj (found.symm.trans row)
          rw [fresh] at named
          cases named
        exact .inr ⟨m, owner, (row_set found).mpr (.inr ⟨other, row⟩), holds, named⟩
  case unclosed => exact sound.unclosed
  case known => exact fun session listed => (sound.known session listed).trans (Nat.lt_succ_self _)
  case early =>
    intro m after row arrived
    rcases (row_set found).mp row with ⟨rfl, rfl⟩ | ⟨-, row⟩
    · rw [admitted] at arrived
      cases arrived
    · exact sound.early m after row arrived
  case minted =>
    intro m after row session named
    rcases session_cases m after row session named with ⟨-, rfl⟩ | ⟨-, -, below⟩
    · exact Nat.lt_succ_self _
    · exact below.trans (Nat.lt_succ_self _)
  case unique =>
    intro i j a b rowA rowB session namedA namedB
    rcases session_cases i a rowA session namedA with ⟨rfl, rfl⟩ | ⟨-, oldA, below⟩
    · rcases session_cases j b rowB _ namedB with ⟨rfl, -⟩ | ⟨-, -, below⟩
      · rfl
      · exact absurd below (Nat.lt_irrefl _)
    · rcases session_cases j b rowB session namedB with ⟨-, rfl⟩ | ⟨-, oldB, -⟩
      · exact absurd below (Nat.lt_irrefl _)
      · exact sound.unique i j a b oldA oldB session namedA namedB
  case unlisted =>
    intro m after row holds session named listed
    rcases session_cases m after row session named with ⟨-, rfl⟩ | ⟨-, old, -⟩
    · exact absurd (sound.known _ listed) (Nat.lt_irrefl _)
    · exact sound.unlisted m after old holds session named listed

theorem closeInner_sound (sound : s.Sound) (session : Nat) :
    Sound { s with sdk := s.sdk.erase session } :=
  { sound with covered := fun other there => sound.covered other (Finset.mem_of_mem_erase there) }

theorem closeRelease_sound (sound : s.Sound) {session : Nat} (gone : session ∉ s.sdk) :
    Sound { s with
      live := s.live.erase session
      permits := if session ∈ s.live then s.permits + 1 else s.permits
      closed := insert session s.closed } := by
  constructor
  case balance =>
    have balance := sound.balance
    by_cases listed : session ∈ s.live
    · have card := Finset.card_erase_add_one listed
      simp only [if_pos listed]
      omega
    · simpa [listed] using balance
  case covered =>
    intro other there
    rcases sound.covered other there with listed | owned
    · refine .inl (Finset.mem_erase.mpr ⟨?_, listed⟩)
      rintro rfl
      exact gone there
    · exact .inr owned
  case unclosed =>
    intro other listed closed
    obtain ⟨apart, listed⟩ := Finset.mem_erase.mp listed
    rcases Finset.mem_insert.mp closed with rfl | closed
    · exact apart rfl
    · exact sound.unclosed other listed closed
  case known => exact fun other listed => sound.known other (Finset.mem_of_mem_erase listed)
  case early => exact sound.early
  case minted => exact sound.minted
  case unique => exact sound.unique
  case unlisted =>
    intro m post row holds other named listed
    exact sound.unlisted m post row holds other named (Finset.mem_of_mem_erase listed)

theorem restage_sound (sound : s.Sound) {before after : SessionPost}
    (found : s.posts[n]? = some before) (session : after.session = before.session)
    (left : after.stage ≠ .arrived) (holds : after.holds = before.holds) :
    (s.setPost n after).Sound := by
  have moved : Restaged s (s.setPost n after) n before after := {
    found := found
    posts := rfl
    session := session
    left := left
    cap := rfl
    minted := rfl
    sdk := rfl
    closed := rfl
    slots := by rw [holds]; rfl
    grown := subset_rfl
    entered := fun _ listed => .inl listed
    kept := fun held _ _ _ => .inl (holds.trans held)
    fresh := fun held => .inl (holds.symm.trans held) }
  exact moved.sound sound

theorem admit_sound (sound : s.Sound) {header : Option (List UInt8)} {session : Option Nat}
    (found : s.posts[n]? = some ⟨header, .arrived, session⟩) (room : s.permits ≠ 0) :
    Sound { s.setPost n ⟨header, .admitted, session⟩ with permits := s.permits - 1 } := by
  have moved : Restaged s { s.setPost n ⟨header, .admitted, session⟩ with permits := s.permits - 1 }
      n ⟨header, .arrived, session⟩ ⟨header, .admitted, session⟩ := {
    found := found
    posts := rfl
    session := rfl
    left := by simp
    cap := rfl
    minted := rfl
    sdk := rfl
    closed := rfl
    slots := by
      show s.permits - 1 + s.live.card + 1 = s.permits + s.live.card + 0
      omega
    grown := subset_rfl
    entered := fun _ listed => .inl listed
    kept := fun _ _ _ _ => .inl rfl
    fresh := fun _ => .inr (sound.early n _ found rfl) }
  exact moved.sound sound

theorem insert_sound (sound : s.Sound) {header : Option (List UInt8)} {session : Nat}
    (found : s.posts[n]? = some ⟨header, .forgotten, some session⟩)
    (unclosed : session ∉ s.closed) :
    Sound { s.setPost n ⟨header, .finished, some session⟩ with live := insert session s.live } := by
  have unlisted : session ∉ s.live := sound.unlisted n _ found rfl session rfl
  have moved : Restaged s
      { s.setPost n ⟨header, .finished, some session⟩ with live := insert session s.live }
      n ⟨header, .forgotten, some session⟩ ⟨header, .finished, some session⟩ := {
    found := found
    posts := rfl
    session := rfl
    left := by simp
    cap := rfl
    minted := rfl
    sdk := rfl
    closed := rfl
    slots := by
      show s.permits + (insert session s.live).card + 0 = s.permits + s.live.card + 1
      rw [Finset.card_insert_of_notMem unlisted]
      rfl
    grown := Finset.subset_insert _ _
    entered := by
      intro other listed
      rcases Finset.mem_insert.mp listed with rfl | old
      · exact .inr ⟨unclosed, rfl, rfl⟩
      · exact .inl old
    kept := by
      intro _ other _ named
      cases named
      exact .inr (Finset.mem_insert_self _ _)
    fresh := fun held => by cases held }
  exact moved.sound sound

theorem drop_sound (sound : s.Sound) {header : Option (List UInt8)} {session : Option Nat}
    (found : s.posts[n]? = some ⟨header, .admitted, session⟩)
    (gone : ∀ id, session = some id → id ∉ s.sdk) :
    Sound { s.setPost n ⟨header, .finished, session⟩ with permits := s.permits + 1 } := by
  have moved : Restaged s { s.setPost n ⟨header, .finished, session⟩ with permits := s.permits + 1 }
      n ⟨header, .admitted, session⟩ ⟨header, .finished, session⟩ := {
    found := found
    posts := rfl
    session := rfl
    left := by simp
    cap := rfl
    minted := rfl
    sdk := rfl
    closed := rfl
    slots := by
      show s.permits + 1 + s.live.card + 0 = s.permits + s.live.card + 1
      omega
    grown := subset_rfl
    entered := fun _ listed => .inl listed
    kept := fun _ id there named => absurd there (gone id named)
    fresh := fun held => by cases held }
  exact moved.sound sound

theorem step_sound {action : SessionAction} (sound : s.Sound) (clear : ¬ s.Untracks action)
    (taken : s.step action = some t) : t.Sound := by
  cases action with
  | post header =>
      cases taken
      exact post_sound sound header
  | gate n buffered =>
      simp only [step] at taken
      split at taken
      case h_1 header session found =>
        split at taken
        · cases taken
          exact restage_sound sound found rfl (by simp) rfl
        · split at taken
          · cases taken
            exact restage_sound sound found rfl (by simp) rfl
          · split at taken
            · cases taken
              exact restage_sound sound found rfl (by simp) rfl
            case isFalse room =>
              cases taken
              exact admit_sound sound found room
      case h_2 => cases taken
  | createSession n =>
      simp only [step] at taken
      split at taken
      case h_1 post found =>
        split at taken
        case isTrue enabled =>
          cases taken
          have admitted : post.stage = .admitted :=
            enabled.1.resolve_left fun passed => clear ⟨post, found, passed⟩
          exact create_sound sound found admitted enabled.2.1
        case isFalse => cases taken
      case h_2 => cases taken
  | forget n =>
      simp only [step] at taken
      split at taken
      case h_1 header session found =>
        cases taken
        exact restage_sound sound found rfl (by simp) rfl
      case h_2 => cases taken
  | insert n =>
      simp only [step] at taken
      split at taken
      case h_1 header session found =>
        cases taken
        exact insert_sound sound found fun closed => clear ⟨_, session, found, rfl, closed⟩
      case h_2 => cases taken
  | drop n =>
      simp only [step] at taken
      split at taken
      case h_1 header session found =>
        cases taken
        exact restage_sound sound found rfl (by simp) rfl
      case h_2 header session found =>
        cases taken
        exact restage_sound sound found rfl (by simp) rfl
      case h_3 header session found =>
        cases taken
        refine drop_sound sound found ?_
        rintro id rfl there
        exact clear ⟨header, id, found, there⟩
      case h_4 => cases taken
  | closeInner session =>
      simp only [step] at taken
      split at taken
      · cases taken
        exact closeInner_sound sound session
      · cases taken
  | closeRelease session =>
      simp only [step] at taken
      split at taken
      case isTrue enabled =>
        cases taken
        exact closeRelease_sound sound enabled.2
      case isFalse => cases taken

theorem session_slots_accounted {cap : Nat} {actions : List SessionAction}
    (clear : ∀ before action, before ++ [action] <+: actions →
      ∀ s, exec step (new cap) before = some s → ¬ s.Untracks action)
    {before : List SessionAction} (within : before <+: actions) {s : BoundedSessionManager}
    (run : exec step (new cap) before = some s) : s.Accounted := by
  have sound : s.Sound := exec_spared (fun _ _ _ sound clear taken => step_sound sound clear taken)
    (new_sound cap) (spared_iff.mpr clear) within run
  exact accounted sound

def openAndClose : List SessionAction :=
  [.post none, .gate 0 true, .createSession 0, .forget 0, .insert 0, .closeInner 0,
    .closeRelease 0]

theorem session_slots_open_and_close : ∃ s, exec step (new 1) openAndClose = some s ∧
    s.permits = 1 ∧ s.Accounted := by
  obtain ⟨s, run, permits⟩ : ∃ s, exec step (new 1) openAndClose = some s ∧ s.permits = 1 :=
    ⟨_, rfl, rfl⟩
  refine ⟨s, run, permits, session_slots_accounted (spared_iff.mp ?_) (List.prefix_refl _) run⟩
  iterate 2
    refine ⟨id, ?_⟩
    rintro _ ⟨⟩
  constructor
  · rintro ⟨post, found, passed⟩
    cases found
    cases passed
  rintro _ ⟨⟩
  refine ⟨id, ?_⟩
  rintro _ ⟨⟩
  constructor
  · rintro ⟨post, session, -, -, closed⟩
    exact Finset.notMem_empty session closed
  rintro _ ⟨⟩
  iterate 2
    refine ⟨id, ?_⟩
    rintro _ ⟨⟩
  trivial

def unreadHeader : List SessionAction :=
  [.post (some [200]), .gate 0 true, .createSession 0, .post (some [200]), .gate 1 true,
    .createSession 1]

theorem unread_header_overflows : ¬ ∀ cap actions s,
    exec step (new cap) actions = some s → s.Accounted := by
  intro accounted
  obtain ⟨s, run, sessions⟩ : ∃ s, exec step (new 1) unreadHeader = some s ∧
      s.sdk.card = 2 ∧ s.cap = 1 := ⟨_, rfl, rfl, rfl⟩
  have capped := (accounted 1 unreadHeader s run).capped
  omega

end BoundedSessionManager
end OxidHome.Api
