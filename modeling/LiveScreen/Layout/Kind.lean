/-
The kinds of layout parameters, one for each kind of container a view can be
put into.
-/
namespace LiveScreen.Layout

/-- A kind of layout parameters. -/
inductive Kind where
  | absList
  | absolute
  | frame
  | linear
  | margin
  | relative
  | viewGroup
  | viewPager
  | recycler
  deriving DecidableEq

namespace Kind

/-- All kinds. -/
def all : List Kind :=
  [.absList, .absolute, .frame, .linear, .margin, .relative, .viewGroup, .viewPager, .recycler]

/-- The name a kind has in markup. -/
def name : Kind → String
  | .absList => "abslistviewlayoutparams"
  | .absolute => "absolutelayoutparams"
  | .frame => "framelayoutparams"
  | .linear => "linearlayoutparams"
  | .margin => "marginparams"
  | .relative => "relativelayoutparams"
  | .viewGroup => "viewgroupparams"
  | .viewPager => "viewpagerparams"
  | .recycler => "recyclerviewlayoutparams"

/-- The name a kind has in descriptions. -/
def describe : Kind → String
  | .absList => "AbsListView"
  | .absolute => "Absolute"
  | .frame => "Frame"
  | .linear => "Linear"
  | .margin => "Margin"
  | .relative => "Relative"
  | .viewGroup => "ViewGroup"
  | .viewPager => "ViewPager"
  | .recycler => "RecyclerView"

/-- Whether parameters of this kind have margins. Plain groups, pagers and list views only have
a size. -/
def hasMargins : Kind → Bool
  | .viewGroup | .viewPager | .absList => false
  | _ => true

/-- The kind that stands in for a name nobody knows. -/
def fallback : Kind := .relative

/-- The kind with a markup name. -/
def ofName? (s : String) : Option Kind := all.find? (·.name == s)

theorem mem_all (k : Kind) : k ∈ all := by cases k <;> decide

end Kind

end LiveScreen.Layout
