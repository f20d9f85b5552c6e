import Fleet.Remote.Call

/-!
Programs that look at a cluster and make remote calls. Between two requests of a program anything
may happen to the cluster, so a program is data, and a host decides what becomes of it. Programs
form a lawful monad, and running respects it.
-/
namespace Fleet

/-- A program with an answer in `α`. -/
inductive Exchange (α : Type) : Type where
  | done (a : α)
  | halt (f : Fault)
  | look (next : View → Exchange α)
  /-- Make a remote call and go on with its reply. -/
  | ask (c : Call) (next : c.Reply → Exchange α)

namespace Exchange

variable {α β γ σ : Type}

def bind : Exchange α → (α → Exchange β) → Exchange β
  | done a, f => f a
  | halt e, _ => halt e
  | look next, f => look fun v => (next v).bind f
  | ask c next, f => ask c fun r => (next r).bind f

instance : Monad Exchange where
  pure := done
  bind := bind

def view : Exchange View := look done

def call (c : Call) : Exchange c.Reply := ask c done

def check : Except Fault α → Exchange α
  | .ok a => done a
  | .error f => halt f

theorem bind_done (p : Exchange α) : p.bind done = p := by
  induction p with
  | done a => rfl
  | halt f => rfl
  | look next ih => simp only [bind, ih]
  | ask c next ih => simp only [bind, ih]

theorem bind_assoc (p : Exchange α) (f : α → Exchange β) (g : β → Exchange γ) :
    (p.bind f).bind g = p.bind fun a => (f a).bind g := by
  induction p with
  | done a => rfl
  | halt f => rfl
  | look next ih => simp only [bind, ih]
  | ask c next ih => simp only [bind, ih]

instance : LawfulMonad Exchange :=
  LawfulMonad.mk' _ (fun p => bind_done p) (fun _ _ => rfl) bind_assoc

end Exchange

/-- Something that answers calls: it has a state, shows a view of it and serves one call at a
time. Serving may meet an arithmetic step without a result. -/
structure Host (σ : Type) where
  view : σ → View
  serve : (c : Call) → σ → σ × Except Fault c.Reply

namespace Exchange

variable {α β σ : Type}

/-- Runs a program against a host, to its answer or to the fault that ends it. -/
def run (h : Host σ) : Exchange α → σ → σ × Except Fault α
  | done a, s => (s, .ok a)
  | halt f, s => (s, .error f)
  | look next, s => run h (next (h.view s)) s
  | ask c next, s =>
    match h.serve c s with
    | (s, .ok r) => run h (next r) s
    | (s, .error f) => (s, .error f)

@[simp] theorem run_pure (h : Host σ) (a : α) (s : σ) :
    (pure a : Exchange α).run h s = (s, .ok a) := rfl

theorem run_bind (h : Host σ) (p : Exchange α) (f : α → Exchange β) (s : σ) :
    (p >>= f).run h s =
      match p.run h s with
      | (s, .ok a) => (f a).run h s
      | (s, .error e) => (s, .error e) := by
  change (p.bind f).run h s = _
  induction p generalizing s with
  | done a => rfl
  | halt e => rfl
  | look next ih => simp only [bind, run, ih]
  | ask c next ih =>
    simp only [bind, run]
    rcases h.serve c s with ⟨s', _ | r⟩
    · rfl
    · simp only [ih]

end Exchange

end Fleet
