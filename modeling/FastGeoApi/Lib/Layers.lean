import Mathlib.Init

/-!
# Layers

An application takes an input to an outcome, and a layer makes an application out of an inner one.
At an input a layer either hands it on, and the outcome depends on the inner one there only, or it
answers without the inner application.
-/

namespace FastGeoApi.Layers

abbrev App (σ ω : Type) := σ → ω

abbrev Layer (σ ω : Type) := App σ ω → App σ ω

section
variable {σ ω : Type}

/-- The layers around an application, the outermost first. -/
def stack (layers : List (Layer σ ω)) (app : App σ ω) : App σ ω :=
  layers.foldr (fun layer inner => layer inner) app

/-- Any application will do at this input. -/
def Layer.Blocks (layer : Layer σ ω) (x : σ) : Prop := ∀ app app', layer app x = layer app' x

/-- The input goes on to the inner application, and something is made of the outcome. -/
def Layer.Passes (layer : Layer σ ω) (x : σ) : Prop := ∃ f : ω → ω, ∀ app, layer app x = f (app x)

/-- The layer is not there at this input. -/
def Layer.Idle (layer : Layer σ ω) (x : σ) : Prop := ∀ app, layer app x = app x

/-- What holds of all outcomes of the inner application holds of those of the layer. -/
def Layer.Keeps (layer : Layer σ ω) (P : ω → Prop) : Prop :=
  ∀ app : App σ ω, (∀ x, P (app x)) → ∀ x, P (layer app x)

variable {layer : Layer σ ω} {layers inner outer : List (Layer σ ω)} {app : App σ ω} {x : σ}
  {P : ω → Prop}

@[simp] theorem stack_nil : stack [] app = app := rfl

@[simp] theorem stack_cons : stack (layer :: layers) app = layer (stack layers app) := rfl

theorem stack_append : stack (outer ++ inner) app = stack outer (stack inner app) :=
  List.foldr_append

theorem passes_stack (h : ∀ layer ∈ layers, Layer.Passes layer x) :
    Layer.Passes (stack layers) x := by
  induction layers with
  | nil => exact ⟨id, fun app => rfl⟩
  | cons layer layers ih =>
    obtain ⟨f, hf⟩ := h layer List.mem_cons_self
    obtain ⟨g, hg⟩ := ih fun l hl => h l (List.mem_cons_of_mem _ hl)
    refine ⟨f ∘ g, fun app => ?_⟩
    rw [stack_cons, hf, hg, Function.comp]

theorem keeps_stack (h : ∀ layer ∈ layers, Layer.Keeps layer P) : Layer.Keeps (stack layers) P := by
  induction layers with
  | nil => exact fun app happ => happ
  | cons layer layers ih =>
    intro app happ
    have hinner := ih (fun l hl => h l (List.mem_cons_of_mem _ hl)) app happ
    exact h layer List.mem_cons_self _ hinner

theorem blocks_stack_cons (h : Layer.Blocks layer x) : Layer.Blocks (stack (layer :: inner)) x :=
  fun _ _ => h _ _

/-- Layers that pass the input on do not let in what a layer behind them blocks. -/
theorem Layer.Blocks.behind (h : Layer.Blocks layer x)
    (houter : ∀ layer ∈ outer, Layer.Passes layer x) :
    Layer.Blocks (stack (outer ++ layer :: inner)) x := by
  obtain ⟨f, hf⟩ := passes_stack houter
  intro app app'
  rw [stack_append, stack_append, hf, hf, blocks_stack_cons h app app']

theorem Layer.Passes.blocks {outermost : Layer σ ω} (h : Layer.Passes outermost x)
    (hblocks : Layer.Blocks layer x) : Layer.Blocks (fun app => outermost (layer app)) x := by
  obtain ⟨f, hf⟩ := h
  intro app app'
  exact (hf (layer app)).trans ((congrArg f (hblocks app app')).trans (hf (layer app')).symm)

/-- A layer that is idle at an input can be left out there. -/
theorem Layer.Idle.behind (h : Layer.Idle layer x)
    (houter : ∀ layer ∈ outer, Layer.Passes layer x) :
    stack (outer ++ layer :: inner) app x = stack (outer ++ inner) app x := by
  obtain ⟨f, hf⟩ := passes_stack houter
  rw [stack_append, stack_append, hf, hf, stack_cons, h]

/-- So can any number of them. -/
theorem stack_idle {idle : List (Layer σ ω)} (h : ∀ layer ∈ idle, Layer.Idle layer x)
    (houter : ∀ layer ∈ outer, Layer.Passes layer x) :
    stack (outer ++ (idle ++ inner)) app x = stack (outer ++ inner) app x := by
  induction idle with
  | nil => rfl
  | cons layer idle ih =>
    rw [List.cons_append, (h layer List.mem_cons_self).behind houter]
    exact ih fun l hl => h l (List.mem_cons_of_mem _ hl)

/-- Where any application will do, what is kept by the layer holds if there is an application for
which it does. -/
theorem Layer.Blocks.of_keeps (h : Layer.Blocks layer x) (hkeeps : Layer.Keeps layer P)
    (app' : App σ ω) (happ' : ∀ x, P (app' x)) : P (layer app x) := by
  rw [h app app']
  exact hkeeps app' happ' x

/-- A choice between layers, by the input. -/
def choose (pick : σ → Option (Layer σ ω)) (none : App σ ω) : Layer σ ω := fun app x =>
  match pick x with
  | some layer => layer app x
  | .none => none x

end
end FastGeoApi.Layers
