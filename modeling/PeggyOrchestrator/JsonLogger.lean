import PeggyOrchestrator.Io
set_option autoImplicit false

/-!
`json_logger/src/lib.rs`: `LOGGING`, the process-wide `once_cell::sync::Lazy` logger that
every `sinfo!`, `swarn!` and `serror!` of the three loops forces. Its initialiser opens
`/peggy/data/json_log/app-<ts>-<pid>.log` for appending and unwraps the result: when the file
cannot be opened the forcing call panics and the cell is poisoned, so every later call panics
as well. A run that forces `LOGGING` is recorded with these calls among its adapter calls; the
plain runs of the other modules are such runs with the log calls taken out.
-/

namespace Peggy

/-- Line 20: the file `LOGGING` appends to, for the initialiser's timestamp and process id. -/
def logfile (ts : Int) (pid : Nat) : String := s!"/peggy/data/json_log/app-{ts}-{pid}.log"

/-- `LOGGING`: not forced yet, with whether its initialiser will return (the log file opens);
initialised; or poisoned by an initialiser that panicked. -/
inductive LoggerState where
  | fresh (opens : Bool)
  | ready
  | poisoned
  deriving DecidableEq, Repr

namespace LoggerState

/-- `LOGGING` when the process starts, on a file system where `canOpen` says which files the
initialiser can open. -/
def initial (ts : Int) (pid : Nat) (canOpen : String → Bool) : LoggerState :=
  .fresh (canOpen (logfile ts pid))

/-- `Lazy::force`: the state after one access and whether the access returned. A fresh cell
runs its initialiser; a poisoned one panics with "Lazy instance has previously been
poisoned". -/
def force : LoggerState → LoggerState × Bool
  | .fresh true => (.ready, true)
  | .fresh false => (.poisoned, false)
  | .ready => (.ready, true)
  | .poisoned => (.poisoned, false)

def returns (s : LoggerState) : Bool := s.force.2

@[simp] theorem returns_force (s : LoggerState) : s.force.1.returns = s.returns := by
  rcases s with ⟨_ | _⟩ | _ | _ <;> rfl

@[simp] theorem returns_initial (ts : Int) (pid : Nat) (canOpen : String → Bool) :
    (initial ts pid canOpen).returns = canOpen (logfile ts pid) := by
  cases h : canOpen (logfile ts pid) <;> simp [initial, returns, force, h]

end LoggerState

/-- A step of a run that may force `LOGGING`: an adapter call, or a structured-log call with
its message tag, which returned or panicked. -/
inductive Logged (C : Type) where
  | call (c : C)
  | slog (tag : String) (returned : Bool)

namespace Logged

variable {C : Type}

def adapterCall : Logged C → Option C
  | call c => some c
  | slog .. => none

def returnedSlog : Logged C → Bool
  | call _ => false
  | slog _ r => r

@[simp] theorem adapterCall_call (c : C) : (call c).adapterCall = some c := rfl
@[simp] theorem adapterCall_slog (t : String) (r : Bool) :
    (slog t r : Logged C).adapterCall = none := rfl
@[simp] theorem returnedSlog_call (c : C) : (call c).returnedSlog = false := rfl
@[simp] theorem returnedSlog_slog (t : String) (r : Bool) :
    (slog t r : Logged C).returnedSlog = r := rfl

end Logged

/-- Every adapter call of `steps` that `bad` flags comes after a structured-log call that
returned: none is among the steps before the first such call. -/
def LoggedBefore {C : Type} (bad : C → Bool) (steps : List (Logged C)) : Prop :=
  ∀ c, Logged.call c ∈ steps.takeWhile (fun e => !e.returnedSlog) → bad c = false

namespace LoggedBefore

variable {C : Type} {bad : C → Bool}

theorem of_forall {steps : List (Logged C)} (h : ∀ c, .call c ∈ steps → bad c = false) :
    LoggedBefore bad steps :=
  fun c hc => h c ((List.takeWhile_prefix _).subset hc)

theorem returned_cons (t : String) (rest : List (Logged C)) :
    LoggedBefore bad (.slog t true :: rest) := by
  intro c hc
  simp at hc

theorem append {pre rest : List (Logged C)} (hpre : ∀ c, .call c ∈ pre → bad c = false)
    (h : LoggedBefore bad rest) : LoggedBefore bad (pre ++ rest) := by
  intro c hc
  rw [List.takeWhile_append] at hc
  split at hc
  · rcases List.mem_append.1 hc with hc | hc
    · exact hpre c hc
    · exact h c hc
  · exact hpre c ((List.takeWhile_prefix _).subset hc)

theorem map_call_append {pre : List C} {rest : List (Logged C)}
    (hpre : ∀ c ∈ pre, bad c = false) (h : LoggedBefore bad rest) :
    LoggedBefore bad (pre.map .call ++ rest) :=
  append (fun c hc => hpre c (by simpa using hc)) h

theorem call_cons {c : C} {rest : List (Logged C)} (hc : bad c = false)
    (h : LoggedBefore bad rest) : LoggedBefore bad (.call c :: rest) :=
  @map_call_append C bad [c] rest (by simpa using hc) h

theorem not_bad_of_prefix {steps p : List (Logged C)} (h : LoggedBefore bad steps)
    (hp : p <+: steps) (hno : ∀ e ∈ p, e.returnedSlog = false) :
    ∀ c, .call c ∈ p → bad c = false := by
  obtain ⟨t, rfl⟩ := hp
  rw [LoggedBefore, List.takeWhile_append_of_pos (by simpa using hno)] at h
  exact fun c hc => h c (List.mem_append_left _ hc)

end LoggedBefore

namespace Io

variable {C α β : Type}

def adapter (mk : α → C) (a : α) : Io (Logged C) α := call (fun a => .call (mk a)) a

/-- A `sinfo!`, `swarn!` or `serror!` with message tag `tag`: it forces `LOGGING`, which
returns when `ok` and panics otherwise. -/
def slog (ok : Bool) (tag : String) : Io (Logged C) Unit :=
  ⟨[.slog tag ok], if ok then some () else none⟩

def lift (x : Io C α) : Io (Logged C) α := ⟨x.calls.map .call, x.ret⟩

/-- The run with its structured-log calls taken out. -/
def erase (x : Io (Logged C) α) : Io C α := ⟨x.calls.filterMap Logged.adapterCall, x.ret⟩

@[simp] theorem adapter_bind (mk : α → C) (a : α) (f : α → Io (Logged C) β) :
    (adapter mk a >>= f) = ⟨.call (mk a) :: (f a).calls, (f a).ret⟩ := rfl

@[simp] theorem slog_true_bind (tag : String) (f : Unit → Io (Logged C) β) :
    (slog true tag >>= f) = ⟨.slog tag true :: (f ()).calls, (f ()).ret⟩ := rfl

@[simp] theorem slog_false_bind (tag : String) (f : Unit → Io (Logged C) β) :
    (slog false tag >>= f) = ⟨[.slog tag false], none⟩ := rfl

@[simp] theorem erase_mk (t : List (Logged C)) (r : Option α) :
    erase ⟨t, r⟩ = ⟨t.filterMap Logged.adapterCall, r⟩ := rfl

@[simp] theorem erase_pure (a : α) : erase (pure a : Io (Logged C) α) = pure a := rfl

@[simp] theorem erase_lift (x : Io C α) : erase (lift x) = x := by
  simp [erase, lift, List.filterMap_map, Function.comp_def]

@[simp] theorem erase_adapter_bind (mk : α → C) (a : α) (f : α → Io (Logged C) β) :
    (adapter mk a >>= f).erase = call mk a >>= fun x => (f x).erase := rfl

@[simp] theorem erase_slog_true_bind (tag : String) (f : Unit → Io (Logged C) β) :
    (slog true tag >>= f).erase = (f ()).erase := rfl

theorem bind_of_ret_eq_none {C' : Type} {x : Io C' α} (f : α → Io C' β) (h : x.ret = none) :
    x >>= f = ⟨x.calls, none⟩ := by
  rcases x with ⟨t, _ | a⟩
  · rfl
  · cases h

theorem erase_bind (x : Io (Logged C) α) (f : α → Io (Logged C) β) :
    erase (x >>= f) = erase x >>= fun a => erase (f a) := by
  rcases x with ⟨t, _ | a⟩ <;> simp [erase]

end Io

namespace LoggedBefore

variable {C α β : Type} {bad : C → Bool}

theorem bind {x : Io (Logged C) α} {f : α → Io (Logged C) β}
    (hx : ∀ c ∈ x.erase.calls, bad c = false) (hf : ∀ a, LoggedBefore bad (f a).calls) :
    LoggedBefore bad (x >>= f).calls := by
  have hx' : ∀ c, .call c ∈ x.calls → bad c = false :=
    fun c hc => hx c (List.mem_filterMap.2 ⟨_, hc, rfl⟩)
  rcases x with ⟨t, _ | a⟩
  · exact of_forall hx'
  · exact append hx' (hf a)

end LoggedBefore

end Peggy
