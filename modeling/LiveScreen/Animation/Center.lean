/-
What the animations of a screen share: the display they are made for, the UI queue
they are played on, and the animations that the markup has declared by name.
-/
import LiveScreen.Animation.Basic
import LiveScreen.Context
import LiveScreen.Table

namespace LiveScreen

/-- The number of a UI queue. -/
abbrev QueueId := Nat

/-- The animations of a screen. -/
structure AnimationCenter where
  context : Context
  ui : Option QueueId
  /-- The animations declared by name. -/
  named : Dict Animation

namespace AnimationCenter

/-- An animation center without animations. -/
def new (context : Context) : AnimationCenter := ⟨context, none, .empty⟩

/-- Declares an animation by name, in place of any other of that name. -/
def insert (c : AnimationCenter) (id : String) (a : Animation) : AnimationCenter :=
  { c with named := c.named.insert id a }

end AnimationCenter

end LiveScreen
