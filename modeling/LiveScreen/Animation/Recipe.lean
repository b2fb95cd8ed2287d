/-
Animations made by hand. A recipe names the type of an animation, configures it
and nests others in it, and unlike the building of a whole screen it reports
the first thing that fails.
-/
import LiveScreen.Animation.Basic

namespace LiveScreen.Animation

/-- The types of animations a recipe can start from. -/
inductive Shape where
  | alpha
  | rotate
  | scale
  | translate
  | frames
  | set

/-- An animation of a type as it is before any attribute is applied. -/
def Shape.make (type : Shape) (density : Float) : Except FactoryError Animation :=
  match type with
  | .alpha => .ok (.alpha .new)
  | .rotate => .ok (.rotate .new)
  | .scale => .ok (.scale .new)
  | .translate => (Translate.new density).map .translate
  | .frames => .ok (.frames .new)
  | .set => .ok (.set [] none)

/-- How to make an animation. -/
inductive Recipe where
  | mk (type : Shape) (density : Float) (attributes : Option Attributes) (children : List Recipe)

instance : Inhabited Recipe := ⟨.mk .alpha 1 none []⟩

/-- Configures an animation if there are attributes for it. -/
def configured (a : Animation) : Option Attributes → Except FactoryError Animation
  | none => .ok a
  | some attributes =>
    match a.configure attributes with
    | (.ok (), a') => .ok a'
    | (.error e, _) => .error e

mutual

/-- The animation of a recipe. -/
def Recipe.make : Recipe → Except FactoryError Animation
  | .mk type density attributes children => do
    let a ← type.make density
    let a ← configured a attributes
    Recipe.makeInto a children

/-- Makes animations and nests them in another, as far as it takes them. -/
def Recipe.makeInto (a : Animation) : List Recipe → Except FactoryError Animation
  | [] => .ok a
  | r :: rest => do
    let child ← r.make
    Recipe.makeInto (a.addChild child).2 rest

end

end LiveScreen.Animation
