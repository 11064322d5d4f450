import Mathlib
set_option autoImplicit false

/-!
An async function of the orchestrator, run against its chain adapters. Each adapter call
is recorded with the arguments it was given and the answer it received; the run ends by
returning a value or by panicking. The answers are inputs of the model, so a statement
over all answers covers every way the two chains and their RPC endpoints can respond.
-/

namespace Peggy

/-- The calls a run made, in order, and `some r` when it returned `r`, `none` when it
panicked. -/
structure Io (C α : Type) where
  calls : List C
  ret : Option α

namespace Io

variable {C α β : Type}

def bind (x : Io C α) (f : α → Io C β) : Io C β :=
  match x.ret with
  | none => ⟨x.calls, none⟩
  | some a => ⟨x.calls ++ (f a).calls, (f a).ret⟩

instance : Monad (Io C) where
  pure a := ⟨[], some a⟩
  bind := bind

/-- An adapter call with the answer it receives, recorded as `mk answer`. -/
def call (mk : α → C) (answer : α) : Io C α := ⟨[mk answer], some answer⟩

/-- A Rust panic: the task stops here. -/
def panic : Io C α := ⟨[], none⟩

@[simp] theorem pure_calls (a : α) : (pure a : Io C α).calls = [] := rfl
@[simp] theorem pure_ret (a : α) : (pure a : Io C α).ret = some a := rfl
@[simp] theorem panic_calls : (panic : Io C α).calls = [] := rfl
@[simp] theorem panic_ret : (panic : Io C α).ret = none := rfl

@[simp] theorem call_bind (mk : α → C) (a : α) (f : α → Io C β) :
    (call mk a >>= f) = ⟨mk a :: (f a).calls, (f a).ret⟩ := rfl

@[simp] theorem pure_bind (a : α) (f : α → Io C β) : ((pure a : Io C α) >>= f) = f a := rfl

@[simp] theorem panic_bind (f : α → Io C β) : ((panic : Io C α) >>= f) = panic := rfl

@[simp] theorem mk_some_bind (t : List C) (a : α) (f : α → Io C β) :
    (Io.mk t (some a) >>= f) = ⟨t ++ (f a).calls, (f a).ret⟩ := rfl

@[simp] theorem mk_none_bind (t : List C) (f : α → Io C β) :
    (Io.mk t (none : Option α) >>= f) = ⟨t, none⟩ := rfl

@[simp] theorem mk_calls (t : List C) (r : Option α) : (Io.mk t r).calls = t := rfl
@[simp] theorem mk_ret (t : List C) (r : Option α) : (Io.mk t r).ret = r := rfl

end Io

end Peggy
