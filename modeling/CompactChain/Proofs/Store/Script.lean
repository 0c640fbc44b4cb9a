import CompactChain.Store.Files

set_option autoImplicit false

namespace CompactChain.Store

namespace Script

variable {α β : Type}

-- Holds of whatever a script ends with, whichever of its changes fail.
def Ensures (post : α → Prop) : Script α → Prop
  | done value => post value
  | perform _ next => ∀ answer, (next answer).Ensures post

theorem Ensures.pure {post : α → Prop} {value : α} (h : post value) :
    (pure value : Script α).Ensures post := h

theorem Ensures.mono {pre post : α → Prop} {script : Script α} (h : script.Ensures pre)
    (weaker : ∀ value, pre value → post value) : script.Ensures post := by
  induction script with
  | done value => exact weaker value h
  | perform effect next ih => exact fun answer => ih answer (h answer)

theorem Ensures.bind {post : β → Prop} {f : α → Script β} {script : Script α}
    (h : script.Ensures fun value => (f value).Ensures post) : (script >>= f).Ensures post := by
  induction script with
  | done value => exact h
  | perform effect next ih => exact fun answer => ih answer (h answer)

theorem Ensures.bind_forall {post : β → Prop} {f : α → Script β} (script : Script α)
    (h : ∀ value, (f value).Ensures post) : (script >>= f).Ensures post := by
  apply Ensures.bind
  induction script with
  | done value => exact h value
  | perform effect next ih => exact ih

theorem Ensures.run {post : α → Prop} {script : Script α} (h : script.Ensures post)
    (medium : Medium) (files : Files) : post (script.run medium files).1 := by
  have general : ∀ step, post (script.runFrom medium step files).1 := by
    induction script generalizing files with
    | done value => exact fun _ => h
    | perform effect next ih =>
      intro step
      rw [runFrom]
      split
      · exact ih _ (h _) _ _
      · exact ih _ (h _) _ _
  exact general 0

-- What a script ends with where none of its changes fails.
def result : Script α → α
  | done value => value
  | perform _ next => (next (.ok ())).result

theorem run_perfect_eq (script : Script α) (files : Files) :
    script.run .perfect files = (script.result, script.effects.foldl Effect.apply files) := by
  have general : ∀ step, (script.runFrom .perfect step files).1 = script.result := by
    induction script generalizing files with
    | done value => intro step; rfl
    | perform effect next ih => intro step; exact ih (.ok ()) (effect.apply files) (step + 1)
  exact Prod.ext (general 0) (run_perfect script files)

theorem run_map (script : Script α) (f : α → β) (medium : Medium) (files : Files) :
    (script >>= fun value => pure (f value)).run medium files =
      (f (script.run medium files).1, (script.run medium files).2) := by
  have general : ∀ step, (script.bind fun value => done (f value)).runFrom medium step files =
      (f (script.runFrom medium step files).1, (script.runFrom medium step files).2) := by
    induction script generalizing files with
    | done value => exact fun _ => rfl
    | perform effect next ih =>
      intro step
      rw [Script.bind, runFrom, runFrom]
      split
      · exact ih _ _ _
      · exact ih _ _ _
  exact general 0

theorem Ensures.result {post : α → Prop} {script : Script α} (h : script.Ensures post) :
    post script.result := by
  induction script with
  | done value => exact h
  | perform effect next ih => exact ih _ (h _)

@[simp] theorem result_pure (value : α) : (pure value : Script α).result = value := rfl

@[simp] theorem effects_pure (value : α) : (pure value : Script α).effects = [] := rfl

@[simp] theorem result_ask (effect : Effect) : (ask effect).result = .ok () := rfl

@[simp] theorem effects_ask (effect : Effect) : (ask effect).effects = [effect] := rfl

@[simp] theorem result_bind (script : Script α) (f : α → Script β) :
    (script >>= f).result = (f script.result).result := by
  induction script with
  | done value => rfl
  | perform effect next ih => exact ih (.ok ())

@[simp] theorem effects_bind (script : Script α) (f : α → Script β) :
    (script >>= f).effects = script.effects ++ (f script.result).effects := by
  induction script with
  | done value => rfl
  | perform effect next ih => exact congrArg (effect :: ·) (ih (.ok ()))

end Script

namespace Effect

def stopped : (complete count : Nat) → List Effect → Files → Files
  | _, _, [], files => files
  | 0, count, effect :: _, files => effect.applyPart files count
  | complete + 1, count, effect :: later, files => stopped complete count later (effect.apply files)

@[simp] theorem stopped_nil (complete count : Nat) (files : Files) :
    stopped complete count [] files = files := by
  cases complete <;> rfl

end Effect

end CompactChain.Store
