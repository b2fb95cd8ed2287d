/-
The animations every loader can be given, by their markup names.
-/
import LiveScreen.Animation.Center
import LiveScreen.Registry

namespace LiveScreen

/-- Animations are made for an animation center. -/
abbrev AnimationRegistry := Registry AnimationCenter Animation

namespace Animation

/-- Makes a change of opacity. -/
def makeAlpha : Factory AnimationCenter Animation := fun _ => .ok (.alpha .new)

/-- Makes a turn. -/
def makeRotate : Factory AnimationCenter Animation := fun _ => .ok (.rotate .new)

/-- Makes a change of size. -/
def makeScale : Factory AnimationCenter Animation := fun _ => .ok (.scale .new)

/-- Makes a move, if the display's density can scale it. -/
def makeTranslate : Factory AnimationCenter Animation := fun center =>
  (Translate.new center.context.density).map .translate

/-- Makes a frame list. -/
def makeFrames : Factory AnimationCenter Animation := fun _ => .ok (.frames .new)

/-- Makes a set. -/
def makeSet : Factory AnimationCenter Animation := fun _ => .ok (.set [] none)

/-- Makes a fade. -/
def makeFade : Factory AnimationCenter Animation := fun _ => .ok (.fade 0)

/-- Registers the builtin animations. -/
def registerBuiltins (r : AnimationRegistry) : AnimationRegistry :=
  (((((r.register "alphaanimation" makeAlpha).register "animationset" makeSet).register
    "rotateanimation" makeRotate).register "scaleanimation" makeScale).register
    "translateanimation" makeTranslate).register "animationlist" makeFrames

end Animation

end LiveScreen
