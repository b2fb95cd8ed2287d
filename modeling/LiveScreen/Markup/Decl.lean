/-
What markup declares: plugins, views, tasks and whole screens.
-/
import LiveScreen.Scene.Graph

namespace LiveScreen

/-- An action or an animation: its name, its attributes and, for animations, what is nested in it. -/
inductive PluginDecl where
  | mk (name : String) (attributes : Attributes) (children : List PluginDecl)

namespace PluginDecl

/-- The name of the plugin. -/
def name : PluginDecl → String
  | .mk name .. => name

/-- The attributes of the element. -/
def attributes : PluginDecl → Attributes
  | .mk _ attributes _ => attributes

instance : Inhabited PluginDecl := ⟨.mk "" .empty []⟩

end PluginDecl

/-- What markup says about one view, the views in it left out. -/
structure ViewDecl where
  kind : String
  name : Option String
  /-- The name of the kind of layout parameters. -/
  params : Option String
  /-- The attributes of the layout parameters, in order. -/
  layout : List (String × Value)
  attributes : Attributes
  bindings : List Binding
  action : Option PluginDecl
  animation : Option PluginDecl

/-- A view and the views in it. -/
inductive NodeDecl where
  | mk (view : ViewDecl) (children : List NodeDecl)

instance : Inhabited NodeDecl := ⟨.mk ⟨"", none, none, [], .empty, [], none, none⟩ []⟩

namespace NodeDecl

mutual

/-- The number of views in a declaration. -/
def size : NodeDecl → Nat
  | .mk _ children => 1 + sizeAll children

/-- The number of views in several declarations. -/
def sizeAll : List NodeDecl → Nat
  | [] => 0
  | d :: rest => d.size + sizeAll rest

end

end NodeDecl

/-- A task. -/
structure TaskDecl where
  hook : Hook
  filter : Option String
  actions : List PluginDecl

/-- A whole screen. -/
structure GraphDecl where
  root : NodeDecl
  tasks : List TaskDecl
  /-- The animations declared by name, in order. -/
  animations : List (String × PluginDecl)

end LiveScreen
