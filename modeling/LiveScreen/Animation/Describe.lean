/-
The description of animations.
-/
import LiveScreen.Animation.Basic
import LiveScreen.Text.Record

namespace LiveScreen.Animation

open Text Decimal

/-- The description of a number. -/
def describeNumber (x : Float) : String := Style.description.text x

mutual

/-- The description of an animation: its kind and its state. -/
def describe : Animation → String
  | .alpha a =>
    Record.fields "Alpha"
      [("from", describeNumber a.start), ("to", describeNumber a.finish), ("duration", a.duration.text)]
  | .rotate r =>
    Record.fields "Rotate"
      [("from", describeNumber r.start), ("to", describeNumber r.finish),
        ("pivot", r.pivot.describe "Point2"), ("duration", r.duration.text)]
  | .scale s =>
    Record.fields "Scale"
      [("from", s.start.describe "Vector2"), ("to", s.finish.describe "Vector2"),
        ("pivot", s.pivot.describe "Point2"), ("duration", s.duration.text)]
  | .translate t =>
    Record.fields "Translate"
      [("density", describeNumber t.density), ("from", t.start.describe "Vector2"),
        ("to", t.finish.describe "Vector2"), ("duration", t.duration.text)]
  | .frames f =>
    Record.fields "FrameList"
      [("frames", Record.list (f.frames.map quote)), ("frame_duration", f.frameDuration.text),
        ("one_shot", Record.flag f.oneShot)]
  | .fade finish => Record.fields "Fade" [("to", describeNumber finish)]
  | .set children declared =>
    Record.fields "Set"
      [("children", Record.list (describeAll children)),
        ("duration", Record.optional (declared.map Duration.text))]

/-- The descriptions of animations. -/
def describeAll : List Animation → List String
  | [] => []
  | a :: rest => a.describe :: describeAll rest

end

end LiveScreen.Animation
