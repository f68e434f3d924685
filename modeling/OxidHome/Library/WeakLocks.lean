import OxidHome.Library.TreeMaps

/-!
# Mutexes behind weak references

A map that hands out one mutex for each key and keeps only weak references to them. Clients are
numbered: a client has a reference for as long as it waits for its mutex or holds it. An entry that
no client refers to is dead; the dead ones are dropped when a new mutex is made.
-/

namespace OxidHome.Library
open Std (TreeMap)

structure LockClient (κ : Type*) where
  key : κ
  mutex : Nat
  holds : Bool

structure WeakLocks (κ : Type*) [Ord κ] where
  entries : TreeMap κ Nat
  clients : TreeMap Nat (LockClient κ)
  locked : List Nat
  nextMutex : Nat

namespace WeakLocks
variable {κ : Type*} [Ord κ]

def new : WeakLocks κ := ⟨∅, ∅, [], 0⟩

def strong (s : WeakLocks κ) (mutex : Nat) : Bool :=
  s.clients.toList.any fun (_, client) => client.mutex = mutex

/-- Upgrade the entry of the key, or make a mutex for it. -/
def ask (s : WeakLocks κ) (n : Nat) (key : κ) : WeakLocks κ :=
  match s.entries[key]?.filter s.strong with
  | some mutex => { s with clients := s.clients.insert n ⟨key, mutex, false⟩ }
  | none =>
      { s with
        entries := (s.entries.filter fun _ mutex => s.strong mutex).insert key s.nextMutex
        clients := s.clients.insert n ⟨key, s.nextMutex, false⟩
        nextMutex := s.nextMutex + 1 }

def take (s : WeakLocks κ) (n : Nat) : Option (WeakLocks κ) :=
  match s.clients[n]? with
  | none => none
  | some client =>
      if client.mutex ∈ s.locked then none
      else some { s with
        clients := s.clients.insert n { client with holds := true }
        locked := client.mutex :: s.locked }

def unlock (s : WeakLocks κ) (n : Nat) : WeakLocks κ :=
  match s.clients[n]? with
  | none => s
  | some client =>
      if client.holds then
        { s with
          clients := s.clients.insert n { client with holds := false }
          locked := s.locked.erase client.mutex }
      else s

/-- The last reference of the client goes, and its guard with it. -/
def leave (s : WeakLocks κ) (n : Nat) : WeakLocks κ :=
  { s.unlock n with clients := (s.unlock n).clients.erase n }

structure Sound (s : WeakLocks κ) : Prop where
  entry : ∀ (n : Nat) (client : LockClient κ), s.clients[n]? = some client →
    s.entries[client.key]? = some client.mutex
  below : ∀ (key : κ) (mutex : Nat), s.entries[key]? = some mutex → mutex < s.nextMutex
  distinct : ∀ (key key' : κ) (mutex : Nat), s.entries[key]? = some mutex →
    s.entries[key']? = some mutex → key = key'
  locked : ∀ (n : Nat) (client : LockClient κ), s.clients[n]? = some client →
    client.holds = true → client.mutex ∈ s.locked
  alone : ∀ (m n : Nat) (client other : LockClient κ), s.clients[m]? = some client →
    s.clients[n]? = some other → client.holds = true → other.holds = true →
    client.mutex = other.mutex → m = n

variable {s t : WeakLocks κ} {n : Nat}

theorem strong_of_client {client : LockClient κ} (found : s.clients[n]? = some client) :
    s.strong client.mutex = true := by
  rw [strong, List.any_eq_true]
  exact ⟨(n, client), mem_toList.mpr found, decide_eq_true rfl⟩

theorem sound_new [Std.TransOrd κ] : Sound (new : WeakLocks κ) := by
  constructor <;> simp [new]

theorem Sound.one_mutex (sound : s.Sound) {m n : Nat} {client other : LockClient κ}
    (found : s.clients[m]? = some client) (found' : s.clients[n]? = some other)
    (same : client.key = other.key) : client.mutex = other.mutex := by
  have here := sound.entry m client found
  have there := sound.entry n other found'
  rw [same] at here
  exact Option.some.inj (here.symm.trans there)

theorem Sound.exclusive (sound : s.Sound) {m n : Nat} {client other : LockClient κ}
    (found : s.clients[m]? = some client) (found' : s.clients[n]? = some other)
    (holds : client.holds = true) (holds' : other.holds = true) (same : client.key = other.key) :
    m = n :=
  sound.alone m n client other found found' holds holds' (sound.one_mutex found found' same)

theorem ask_clients (key : κ) (m : Nat) : (s.ask n key).clients[m]? =
    if n = m then (s.ask n key).clients[n]? else s.clients[m]? := by
  split_ifs with same
  · rw [same]
  · unfold ask
    split
    · rw [getElem?_insert_ne _ _ same]
    · rw [getElem?_insert_ne _ _ same]

theorem ask_self (key : κ) : ∃ mutex, (s.ask n key).clients[n]? = some ⟨key, mutex, false⟩ := by
  unfold ask
  split
  · exact ⟨_, getElem?_insert_self _ _ _⟩
  · exact ⟨_, getElem?_insert_self _ _ _⟩

theorem take_eq_some (taken : s.take n = some t) : ∃ client, s.clients[n]? = some client ∧
    client.mutex ∉ s.locked ∧ t = { s with
      clients := s.clients.insert n { client with holds := true }
      locked := client.mutex :: s.locked } := by
  unfold take at taken
  split at taken
  · cases taken
  · next client found =>
      split_ifs at taken with free
      exact ⟨client, found, free, (Option.some.inj taken).symm⟩

theorem unlock_clients (m : Nat) : (s.unlock n).clients[m]? =
    if n = m then s.clients[n]?.map fun client => { client with holds := false }
    else s.clients[m]? := by
  unfold unlock
  cases found : s.clients[n]? with
  | none =>
      split_ifs with same
      · rw [← same, found]
        rfl
      · rfl
  | some client =>
      dsimp only
      split_ifs with holds same same
      · rw [← same]
        exact getElem?_insert_self _ _ _
      · exact getElem?_insert_ne _ _ same
      · rw [← same, found]
        cases client with
        | mk key mutex holder =>
            cases holder with
            | true => exact absurd rfl holds
            | false => rfl
      · rfl

theorem leave_clients (m : Nat) :
    (s.leave n).clients[m]? = if n = m then none else s.clients[m]? := by
  simp only [leave, getElem?_erase_eq, unlock_clients]
  split_ifs <;> rfl

theorem unlock_entries : (s.unlock n).entries = s.entries := by
  unfold unlock
  split
  · rfl
  · split_ifs <;> rfl

theorem unlock_nextMutex : (s.unlock n).nextMutex = s.nextMutex := by
  unfold unlock
  split
  · rfl
  · split_ifs <;> rfl

theorem Sound.ask [DecidableEq κ] [Std.TransOrd κ] [Std.LawfulEqOrd κ] (sound : s.Sound) (key : κ)
    (absent : s.clients[n]? = none) : (s.ask n key).Sound := by
  have other : ∀ {m : Nat} {client : LockClient κ}, s.clients[m]? = some client → n ≠ m := by
    rintro m client found rfl
    rw [absent] at found
    cases found
  unfold WeakLocks.ask
  split
  · next mutex upgraded =>
      obtain ⟨entry, _⟩ := Option.filter_eq_some_iff.mp upgraded
      refine ⟨?_, sound.below, sound.distinct, ?_, ?_⟩
      · intro m client found
        dsimp only at found
        rw [getElem?_insert_eq] at found
        split_ifs at found with same
        · cases found
          exact entry
        · exact sound.entry m client found
      · intro m client found holds
        dsimp only at found
        rw [getElem?_insert_eq] at found
        split_ifs at found with same
        · cases found
          cases holds
        · exact sound.locked m client found holds
      · intro m m' client client' found found' holds holds' mutexes
        dsimp only at found found'
        rw [getElem?_insert_eq] at found found'
        split_ifs at found with same
        · cases found
          cases holds
        · split_ifs at found' with same'
          · cases found'
            cases holds'
          · exact sound.alone m m' client client' found found' holds holds' mutexes
  · next dead =>
      have kept : ∀ {k : κ} {mutex : Nat},
          ((s.entries.filter fun _ mutex => s.strong mutex).insert key s.nextMutex)[k]? = some mutex →
          key = k ∧ mutex = s.nextMutex ∨ key ≠ k ∧ s.entries[k]? = some mutex := by
        intro k mutex found
        rw [getElem?_insert_eq] at found
        split_ifs at found with same
        · exact Or.inl ⟨same, (Option.some.inj found).symm⟩
        · rw [TreeMap.getElem?_filter', Option.filter_eq_some_iff] at found
          exact Or.inr ⟨same, found.1⟩
      refine ⟨?_, ?_, ?_, ?_, ?_⟩
      · intro m client found
        dsimp only at found ⊢
        rw [getElem?_insert_eq] at found
        split_ifs at found with same
        · cases found
          exact getElem?_insert_self _ _ _
        · have entry := sound.entry m client found
          have strong := strong_of_client found
          have apart : key ≠ client.key := by
            rintro rfl
            rw [entry, Option.filter_some, strong, if_pos rfl] at dead
            cases dead
          rw [getElem?_insert_ne _ _ apart, TreeMap.getElem?_filter', entry, Option.filter_some,
            strong, if_pos rfl]
      · intro k mutex found
        rcases kept found with ⟨_, rfl⟩ | ⟨_, old⟩
        · exact Nat.lt_succ_self _
        · exact Nat.lt_succ_of_lt (sound.below k mutex old)
      · intro k k' mutex found found'
        rcases kept found with ⟨here, fresh⟩ | ⟨_, old⟩
        · rcases kept found' with ⟨here', _⟩ | ⟨_, old'⟩
          · exact here.symm.trans here'
          · rw [fresh] at old'
            exact absurd (sound.below k' _ old') (lt_irrefl _)
        · rcases kept found' with ⟨_, fresh⟩ | ⟨_, old'⟩
          · rw [fresh] at old
            exact absurd (sound.below k _ old) (lt_irrefl _)
          · exact sound.distinct k k' mutex old old'
      · intro m client found holds
        dsimp only at found
        rw [getElem?_insert_eq] at found
        split_ifs at found with same
        · cases found
          cases holds
        · exact sound.locked m client found holds
      · intro m m' client client' found found' holds holds' mutexes
        dsimp only at found found'
        rw [getElem?_insert_eq] at found found'
        split_ifs at found with same
        · cases found
          cases holds
        · split_ifs at found' with same'
          · cases found'
            cases holds'
          · exact sound.alone m m' client client' found found' holds holds' mutexes

theorem Sound.take (sound : s.Sound) (taken : s.take n = some t) : t.Sound := by
  obtain ⟨client, here, free, rfl⟩ := take_eq_some taken
  have cases_of : ∀ {m : Nat} {other : LockClient κ},
      (s.clients.insert n { client with holds := true })[m]? = some other →
      n = m ∧ other = { client with holds := true } ∨ n ≠ m ∧ s.clients[m]? = some other := by
    intro m other found
    rw [getElem?_insert_eq] at found
    split_ifs at found with same
    · exact Or.inl ⟨same, (Option.some.inj found).symm⟩
    · exact Or.inr ⟨same, found⟩
  refine ⟨?_, sound.below, sound.distinct, ?_, ?_⟩
  · intro m other found
    rcases cases_of found with ⟨_, rfl⟩ | ⟨_, old⟩
    · exact sound.entry n client here
    · exact sound.entry m other old
  · intro m other found holds
    rcases cases_of found with ⟨_, rfl⟩ | ⟨_, old⟩
    · exact List.mem_cons_self
    · exact List.mem_cons_of_mem _ (sound.locked m other old holds)
  · intro m m' other other' found found' holds holds' mutexes
    rcases cases_of found with ⟨same, rfl⟩ | ⟨_, old⟩
    · rcases cases_of found' with ⟨same', _⟩ | ⟨_, old'⟩
      · exact same.symm.trans same'
      · have busy := sound.locked m' other' old' holds'
        rw [← mutexes] at busy
        exact absurd busy free
    · rcases cases_of found' with ⟨_, rfl⟩ | ⟨_, old'⟩
      · have busy := sound.locked m other old holds
        rw [mutexes] at busy
        exact absurd busy free
      · exact sound.alone m m' other other' old old' holds holds' mutexes

theorem Sound.unlock (sound : s.Sound) : (s.unlock n).Sound := by
  have before : ∀ {m : Nat} {client : LockClient κ}, (s.unlock n).clients[m]? = some client →
      ∃ old, s.clients[m]? = some old ∧ client.key = old.key ∧ client.mutex = old.mutex ∧
        (client.holds = true → n ≠ m ∧ old.holds = true) := by
    intro m client found
    rw [unlock_clients] at found
    split_ifs at found with same
    · subst same
      obtain ⟨old, live, rfl⟩ := Option.map_eq_some_iff.mp found
      refine ⟨old, live, rfl, rfl, ?_⟩
      intro holds
      cases holds
    · exact ⟨client, found, rfl, rfl, fun holds => ⟨same, holds⟩⟩
  refine ⟨?_, ?_, ?_, ?_, ?_⟩
  · intro m client found
    obtain ⟨old, live, key, mutex, _⟩ := before found
    rw [unlock_entries, key, mutex]
    exact sound.entry m old live
  · rw [unlock_entries, unlock_nextMutex]
    exact sound.below
  · rw [unlock_entries]
    exact sound.distinct
  · intro m client found holds
    obtain ⟨old, live, _, mutex, held⟩ := before found
    obtain ⟨apart, holds⟩ := held holds
    have busy := sound.locked m old live holds
    rw [mutex]
    unfold WeakLocks.unlock
    split
    · exact busy
    · next mine here =>
        split_ifs with mineHolds
        · apply (List.mem_erase_of_ne _).mpr busy
          intro same
          exact apart (sound.alone n m mine old here live mineHolds holds same.symm)
        · exact busy
  · intro m m' client client' found found' holds holds' mutexes
    obtain ⟨old, live, _, mutex, held⟩ := before found
    obtain ⟨old', live', _, mutex', held'⟩ := before found'
    apply sound.alone m m' old old' live live' (held holds).2 (held' holds').2
    rw [← mutex, ← mutex', mutexes]

theorem Sound.leave (sound : s.Sound) : (s.leave n).Sound := by
  have unlocked := sound.unlock (n := n)
  have still : ∀ {m : Nat} {client : LockClient κ}, (s.leave n).clients[m]? = some client →
      (s.unlock n).clients[m]? = some client := by
    intro m client found
    simp only [WeakLocks.leave, getElem?_erase_eq] at found
    split_ifs at found
    exact found
  refine ⟨?_, unlocked.below, unlocked.distinct, ?_, ?_⟩
  · exact fun m client found => unlocked.entry m client (still found)
  · exact fun m client found => unlocked.locked m client (still found)
  · exact fun m m' client client' found found' =>
      unlocked.alone m m' client client' (still found) (still found')

end WeakLocks

end OxidHome.Library
