import Aetheris.PaperSnapshot

namespace Aetheris.PaperRestore

open Lib Mutation Clock OrderIdentity PaperRecords PaperEngine PaperLedger PaperRefinement PaperRuns PaperAccounts
  PaperIndex PaperSnapshot

/-- How the snapshot store stands with its database. -/
structure SnapshotStore where
  healthy : Bool := true
  lastError : Option String := none
  deriving DecidableEq

/-- What becomes of a transaction: it takes effect, it does not, or it does and nobody hears of it. -/
inductive Commit
  | landed
  | failed (problem : String)
  | unheard (problem : String)

section Stores

variable (models : Models)

def degrade (detail : String) : SnapshotStore := { healthy := false, lastError := some detail }

/-- The stored state, or that there is none to read: the row is absent, is not a
snapshot that can be read, or the database did not answer. -/
def load (row : Option Document) (problem : Option String) (store : SnapshotStore) : Option KeptState × SnapshotStore :=
  match problem with
  | some problem => (none, degrade s!"snapshot could not be read: {problem}")
  | none =>
      match row with
      | none => (none, store)
      | some document =>
          match fromSnapshot models document with
          | .ok state => (some state, store)
          | .error _ => (none, store)

/-- Replace the stored snapshot, and whether the write landed as far as the store knows. -/
def save (kept : KeptState) (commit : Commit) (row : Option Document) : Bool × SnapshotStore × Option Document :=
  match commit with
  | .landed => (true, {}, some (toSnapshot models kept))
  | .failed problem => (false, degrade s!"snapshot could not be written: {problem}", row)
  | .unheard problem =>
      (false, degrade s!"snapshot could not be written: {problem}", some (toSnapshot models kept))

end Stores

/-- The database's row and the process, which has a store once its database was reached. -/
structure Process where
  row : Option Document
  store : Option SnapshotStore := none
  repository : Repository
  /-- The account that the last explicit reset of the process left. -/
  renewed : Option PaperState := none
  /-- The start could not read a snapshot that was there, and nobody has reset the account since. -/
  unread : Bool := false

/-- A stored snapshot that is replaced, and the process that replaces it. -/
structure Landing where
  replaced : Document
  process : Process

section Runs

variable [Runtime] (config : PaperEngineConfig) (models : Models)

/-- A new process, with the account that it starts with. -/
def booted (now : Timestamp) : Repository := opening config.startingBalance now .inMemory

/-- A call of the engine; one that resets the account says so. -/
def called (call : Call) (p : Process) : Process :=
  let repository := call.leaves config p.repository
  match call with
  | .keep _ => { p with repository := repository }
  | .reset _ _ => { p with repository := repository, renewed := some repository.state, unread := false }

/-- The row that the snapshot of an account was written over. -/
def replaced (p : Process) : Commit → Option Landing
  | .failed _ => none
  | .landed | .unheard _ => p.row.map fun document => ⟨document, p⟩

def stillUnread (unread : Bool) : Commit → Bool
  | .failed _ => unread
  | .landed | .unheard _ => false

inductive Step : Process → Option Landing → Process → Prop
  /-- The process starts and does not reach its database: no store is bound. -/
  | unbound {p now} : Step p none { row := p.row, repository := booted config now }
  /-- It starts, and the load gives it no state. -/
  | fresh {p now problem store} (hload : load models p.row problem {} = (none, store)) :
      Step p none
        { row := p.row, store := some store, repository := booted config now
          unread := problem.isSome && p.row.isSome }
  /-- It starts, and restores what the load gives it. -/
  | restored {p now problem store state s} (hload : load models p.row problem {} = (some state, store))
      (hstate : state.Denotes s) :
      Step p none { row := p.row, store := some store, repository := { booted config now with state := s } }
  | called {p} (call : Call) : Step p none (called config call p)
  /-- The account is written as it is; its records are read as they were written. -/
  | saved {p store state} (commit : Commit) (hbound : p.store = some store) (hstate : state.Denotes p.repository.state)
      (hmodels : models.Inverse state) :
      Step p (replaced p commit)
        { p with
          store := some (save models state commit p.row).2.1
          row := (save models state commit p.row).2.2
          unread := stillUnread p.unread commit }

/-- A run, with every stored snapshot that it replaced. -/
inductive History : Process → List Landing → Process → Prop
  | refl {p} : History p [] p
  | step {p found p₁ landings p'} : Step config models p found p₁ → History p₁ landings p' →
      History p (found.toList ++ landings) p'

/-- What the document was written of, or what is read in it. -/
def Holds (document : Document) (s : PaperState) : Prop :=
  ∃ state : KeptState, state.Denotes s ∧
    (toSnapshot models state = document ∨ fromSnapshot models document = .ok state)

/-- Operations of the engine lead from an account to this one. -/
def Descends (s : PaperState) (r : Repository) : Prop := ∃ r₀ ops, r₀.state = s ∧ run config r₀ ops = r

/-- The account descends from the stored one, or from one that an explicit reset left. -/
def Lawful (document : Document) (p : Process) : Prop :=
  (∃ s, Holds models document s ∧ Descends config s p.repository) ∨ ∃ s ∈ p.renewed, Descends config s p.repository

/-- A document that this build reads. -/
def Readable (document : Document) : Prop :=
  ∃ (state : KeptState) (s : PaperState), fromSnapshot models document = .ok state ∧ state.Denotes s

/-- What a process with a store has in memory goes back to what is stored. -/
structure Sound (p : Process) : Prop where
  readable : ∀ document ∈ p.row, Readable models document
  lawful : p.store.isSome = true → p.unread = false → ∀ document ∈ p.row, Lawful config models document p

end Runs

section Loads

variable {models : Models} {row : Option Document} {problem : Option String} {store store' : SnapshotStore}
  {state : KeptState} {document : Document} {s : PaperState}

theorem load_some (h : load models row problem store = (some state, store')) :
    problem = none ∧ ∃ document ∈ row, fromSnapshot models document = .ok state := by
  unfold load at h
  split at h
  · cases h
  · split at h
    · cases h
    · rename_i document
      split at h
      · rename_i read hread
        obtain ⟨rfl, _⟩ := Prod.mk.inj h |>.imp_left Option.some.inj
        exact ⟨rfl, document, rfl, hread⟩
      · cases h

/-- A readable row that gives no state was not read. -/
theorem load_none (hreadable : ∀ document ∈ row, Readable models document)
    (h : load models row problem store = (none, store')) (hread : problem = none) : row = none := by
  subst hread
  unfold load at h
  split at h
  · rename_i hproblem
    cases hproblem
  · split at h
    · rfl
    · rename_i document
      obtain ⟨state, s, hstate, _⟩ := hreadable document rfl
      rw [hstate] at h
      cases h

theorem denotes_reindexed (h : state.Denotes s) (index : Dict String PaperOrder) :
    { state with ordersByClientId := index }.Denotes { s with ordersByClientId := index } := by
  refine ⟨h.1, ?_⟩
  have haccount := h.2
  rw [KeptState.account] at haccount ⊢
  rw [haccount]

theorem readable_toSnapshot (h : state.Denotes s) (hmodels : models.Inverse state) :
    Readable models (toSnapshot models state) :=
  ⟨_, _, fromSnapshot_toSnapshot hmodels, denotes_reindexed h _⟩

end Loads

section Steps

variable [Runtime] {config : PaperEngineConfig} {models : Models} {p p' : Process} {found : Option Landing}
  {document : Document} {s : PaperState} {r : Repository}

theorem descends_refl : Descends config r.state r := ⟨r, [], rfl, rfl⟩

theorem descends_after (h : Descends config s r) (op : Operation) : Descends config s (after config r op) := by
  obtain ⟨r₀, ops, hs, rfl⟩ := h
  refine ⟨r₀, ops ++ [op], hs, ?_⟩
  rw [run, List.foldl_append]
  rfl

theorem lawful_called (h : Lawful config models document p) (op : Operation) :
    Lawful config models document (called config (.keep op) p) := by
  rcases h with ⟨s, hholds, hs⟩ | ⟨s, hrenewed, hs⟩
  · exact .inl ⟨s, hholds, descends_after hs op⟩
  · exact .inr ⟨s, hrenewed, descends_after hs op⟩

theorem sound_called (hp : Sound config models p) (call : Call) : Sound config models (called config call p) := by
  cases call with
  | keep op =>
      refine ⟨hp.readable, fun hbound hread document hrow => ?_⟩
      exact lawful_called (hp.lawful hbound hread document hrow) op
  | reset now startingBalance =>
      refine ⟨hp.readable, fun _ _ document _ => .inr ⟨_, rfl, descends_refl⟩⟩

theorem sound_saved {state : KeptState} (hp : Sound config models p) (commit : Commit)
    (hbound : p.store.isSome = true) (hstate : state.Denotes p.repository.state) (hmodels : models.Inverse state) :
    Sound config models { p with
      store := some (save models state commit p.row).2.1
      row := (save models state commit p.row).2.2
      unread := stillUnread p.unread commit } := by
  have hlanded : ∀ document ∈ some (toSnapshot models state), Readable models document ∧
      ∃ s, Holds models document s ∧ Descends config s p.repository := by
    rintro _ ⟨⟩
    exact ⟨readable_toSnapshot hstate hmodels, _, ⟨state, hstate, .inl rfl⟩, descends_refl⟩
  cases commit with
  | failed problem => exact ⟨hp.readable, fun _ hread => hp.lawful hbound hread⟩
  | landed | unheard =>
      exact ⟨fun document hrow => (hlanded document hrow).1, fun _ _ document hrow => .inl (hlanded document hrow).2⟩

theorem sound_step (hp : Sound config models p) (h : Step config models p found p') : Sound config models p' := by
  cases h with
  | unbound => exact ⟨hp.readable, nofun⟩
  | @fresh _ problem store hload =>
      refine ⟨hp.readable, fun _ hread document hrow => ?_⟩
      have hanswered : problem = none := by
        cases problem with
        | none => rfl
        | some problem =>
            rw [show p.row = some document from hrow] at hread
            cases hread
      rw [load_none hp.readable hload hanswered] at hrow
      cases hrow
  | restored hload hstate =>
      obtain ⟨_, document, hrow, hread⟩ := load_some hload
      refine ⟨hp.readable, fun _ _ other hother => .inl ⟨_, ⟨_, hstate, .inr ?_⟩, _, [], rfl, rfl⟩⟩
      obtain rfl := Option.some.inj (hrow.symm.trans hother)
      exact hread
  | called call => exact sound_called hp call
  | saved commit hbound hstate hmodels =>
      exact sound_saved hp commit (by rw [hbound]; rfl) hstate hmodels

theorem lawful_step (hp : Sound config models p) (h : Step config models p found p') :
    ∀ landing ∈ found, landing.process.unread = false → Lawful config models landing.replaced landing.process := by
  cases h with
  | unbound | fresh | restored | called => exact fun landing hlanding => absurd hlanding (Option.not_mem_none landing)
  | saved commit hbound =>
      intro landing hlanding hread
      have hrow : landing.process = p ∧ landing.replaced ∈ p.row := by
        cases commit with
        | failed => cases hlanding
        | landed | unheard =>
            obtain ⟨document, hrow, rfl⟩ := Option.map_eq_some_iff.mp hlanding
            exact ⟨rfl, hrow⟩
      rw [hrow.1] at hread ⊢
      exact hp.lawful (by rw [hbound]; rfl) hread _ hrow.2

theorem lawful_history {landings : List Landing} (hp : Sound config models p)
    (h : History config models p landings p') :
    ∀ landing ∈ landings, landing.process.unread = false →
      Lawful config models landing.replaced landing.process := by
  induction h with
  | refl => exact fun _ hlanding => absurd hlanding List.not_mem_nil
  | step hstep _ ih =>
      intro landing hlanding hread
      rcases List.mem_append.mp hlanding with hlanding | hlanding
      · exact lawful_step hp hstep landing (Option.mem_toList.mp hlanding) hread
      · exact ih (sound_step hp hstep) landing hlanding hread

end Steps

section Examples

/-- An account on which nothing happened, as it is kept. -/
def blank (balance : Nat) (session : Option KeptSession) : KeptState where
  accountId := defaultAccountId
  createdAt := epoch
  updatedAt := epoch
  startingBalance := { coefficient := balance }
  balance := { coefficient := balance }
  realizedPnl := { coefficient := 0 }
  totalFees := { coefficient := 0 }
  autonomousEnabled := false
  emergencyStopped := false
  emergencyReason := none
  positions := .empty
  ordersByClientId := .empty
  orderLog := []
  trades := []
  session := session
  sequence := 0

def quietDay : KeptSession where
  sessionDate := ⟨0, CalendarText.datable_epoch⟩
  profitTarget := { coefficient := 10 }
  lossLimit := { negative := true, coefficient := 1 }
  realizedPnl := { coefficient := 0 }
  fees := { coefficient := 0 }
  tradesClosed := 0
  ordersSubmitted := 0
  ordersRejected := 0
  lockState := .none
  lockReason := none
  lockedAt := none

theorem blank_inverse (balance : Nat) (session : Option KeptSession) :
    (refusedModels []).Inverse (blank balance session) where
  orders _ h := (nomatch h)
  trades _ h := (nomatch h)
  theses _ h := (nomatch h)

abbrev models : Models := refusedModels []

/-- The account of five hundred that is stored. -/
def stored : Document := toSnapshot models (blank 500 none)

theorem read_stored : fromSnapshot models stored = .ok (blank 500 none) :=
  (round_trip_iff (blank_inverse 500 none)).mpr rfl

theorem denotes_blank : (blank 500 none).Denotes (fresh 500 0) := by decide +kernel

/-- What is written and read of a document under a key. -/
theorem get_toSnapshot (state : KeptState) :
    PaperSnapshot.get (toSnapshot models state) "starting_balance" .null = dec state.startingBalance ∧
      PaperSnapshot.get (toSnapshot models state) "positions" .null =
        .dict (state.positions.map (positionOut models)).entries := by
  simp [toSnapshot, PaperSnapshot.get, List.lookup_cons]

theorem holds_stored {s : PaperState} (h : Holds models stored s) :
    s.startingBalance = 500 ∧ s.positions.entries = [] := by
  obtain ⟨state, hstate, hdocument⟩ := h
  have hkept : state.startingBalance = { coefficient := 500 } ∧ state.positions.entries = [] := by
    rcases hdocument with hwritten | hread
    · obtain ⟨hstarting, hpositions⟩ := get_toSnapshot state
      obtain ⟨hstarting', hpositions'⟩ := get_toSnapshot (blank 500 none)
      rw [hwritten] at hstarting hpositions
      have hdec := congrArg undec (hstarting.symm.trans hstarting')
      rw [undec_dec, undec_dec] at hdec
      have hentries := Value.dict.inj (hpositions.symm.trans hpositions')
      exact ⟨Option.some.inj (Except.ok.inj hdec), List.map_eq_nil_iff.mp hentries⟩
    · obtain rfl := Except.ok.inj (read_stored.symm.trans hread)
      exact ⟨rfl, rfl⟩
  refine ⟨?_, ?_⟩
  · have hvalue : ({ coefficient := 500 } : DecimalText.Numeral).value = 500 := by decide +kernel
    rw [hstate.2, KeptState.account, hkept.1]
    exact hvalue
  · have hpositions := congrArg Dict.entries hstate.1
    change state.positions.entries.map _ = s.positions.entries.map _ at hpositions
    rw [hkept.2] at hpositions
    exact List.map_eq_nil_iff.mp hpositions.symm

def ticked (r : Repository) : Repository := @after referenceRuntime exampleConfig r (.tick 0 .empty)

/-- A process that started over `stored`, with the store and the account it has. -/
def serving (store : SnapshotStore) (unread : Bool) (r : Repository) : Process :=
  { row := some stored, store := some store, repository := r, unread := unread }

/-- The process starts, ticks, and what it then has is written. -/
theorem history_ticked {now : Timestamp} {store : SnapshotStore} {unread : Bool} {r : Repository} {state : KeptState}
    (hstart : @Step referenceRuntime exampleConfig models { row := some stored, repository := booted exampleConfig now }
      none (serving store unread r)) (hstate : state.Denotes (ticked r).state) (hmodels : models.Inverse state) :
    ∃ p, @History referenceRuntime exampleConfig models
      { row := some stored, repository := booted exampleConfig now } [⟨stored, serving store unread (ticked r)⟩] p := by
  have htick := @Step.called referenceRuntime exampleConfig models (serving store unread r) (.keep (.tick 0 .empty))
  have hsaved := @Step.saved referenceRuntime exampleConfig models (serving store unread (ticked r)) store state .landed rfl
    hstate hmodels
  exact ⟨_, @History.step referenceRuntime _ _ _ _ _ _ _ hstart (@History.step referenceRuntime _ _ _ _ _ _ _ htick
    (@History.step referenceRuntime _ _ _ _ _ _ _ hsaved (@History.refl referenceRuntime _ _ _)))⟩

theorem readable_stored : ∀ document ∈ some stored, Readable models document := by
  rintro _ ⟨⟩
  exact readable_toSnapshot denotes_blank (blank_inverse 500 none)

def restoredAccount : Repository := { booted exampleConfig 0 with state := fresh 500 0 }

end Examples

end Aetheris.PaperRestore
