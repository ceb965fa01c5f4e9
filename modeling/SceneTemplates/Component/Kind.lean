import SceneTemplates.Text.Basic

/-!
# Kinds of components

A component is named by its tag. Containers hold other components, leaves hold none. Each kind
has the attributes that it shares with all others and some of its own.
-/
namespace SceneTemplates

inductive ComponentKind where
  | zstack | vstack | hstack | image | text | rectangle
  deriving DecidableEq

/-- The properties that an animation can change. -/
def transitionableProperties : List Text :=
  ["opacity", "scale", "rotate", "translate_x", "translate_y"]

namespace ComponentKind

def all : List ComponentKind := [.zstack, .vstack, .hstack, .image, .text, .rectangle]

def tag : ComponentKind → String
  | .zstack => "zstack"
  | .vstack => "vstack"
  | .hstack => "hstack"
  | .image => "image"
  | .text => "text"
  | .rectangle => "rectangle"

/-- The kind of a tag; other tags are no components. -/
def ofTag? (name : Text) : Option ComponentKind := all.find? fun kind => name = kind.tag

/-- Whether components of this kind have children. -/
def isContainer : ComponentKind → Bool
  | .zstack | .vstack | .hstack | .image => true
  | .text | .rectangle => false

/-- The attributes of every component. -/
def commonFields : List Text :=
  (["id", "style", "inset", "left", "right", "top", "bottom", "width", "max_width", "min_width",
   "height", "max_height", "min_height", "aspect_ratio", "offset", "offset_x", "offset_y",
   "flex", "flex_grow", "flex_shrink", "flex_basis", "padding", "padding_x", "padding_y",
   "padding_left", "padding_right", "padding_top", "padding_bottom", "transform_origin"] :
    List Text) ++ transitionableProperties

def ownFields : ComponentKind → List Text
  | .zstack | .rectangle => []
  | .vstack | .hstack => ["gap", "align", "justify"]
  | .image => ["src", "resize_mode", "image_displacement", "image_offset"]
  | .text => ["text"]

/-- All attributes that a component of this kind may have. -/
def fields (kind : ComponentKind) : List Text :=
  commonFields ++ (if kind.isContainer then [Text.ofString "children"] else []) ++ kind.ownFields

theorem mem_all (kind : ComponentKind) : kind ∈ all := by cases kind <;> decide

@[simp] theorem ofTag?_tag (kind : ComponentKind) : ofTag? kind.tag = some kind := by
  cases kind <;> decide

end ComponentKind

end SceneTemplates
