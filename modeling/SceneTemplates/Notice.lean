import SceneTemplates.Text.Basic

/-!
# Notices

What happens while a template is loaded, compiled and built is noted with a level and a topic.
Whoever runs the library decides which notices are shown.
-/
namespace SceneTemplates

/-- How important a notice is, from the least. -/
inductive NoticeLevel where
  | debug | info | warning | error
  deriving DecidableEq

namespace NoticeLevel

def all : List NoticeLevel := [.debug, .info, .warning, .error]

def name : NoticeLevel → String
  | .debug => "DEBUG"
  | .info => "INFO"
  | .warning => "WARNING"
  | .error => "ERROR"

def rank : NoticeLevel → Nat
  | .debug => 0
  | .info => 1
  | .warning => 2
  | .error => 3

end NoticeLevel

/-- The part of the library that notes something. -/
inductive NoticeTopic where
  | loading | compilation | scene
  deriving DecidableEq

namespace NoticeTopic

/-- The channel that shows a topic. -/
def channel : NoticeTopic → String
  | .loading => "scenecraft.template.loader"
  | .compilation => "scenecraft.compiler.visitor"
  | .scene => "scenecraft.template.scene"

end NoticeTopic

structure Notice where
  level : NoticeLevel
  topic : NoticeTopic
  text : Text
  deriving DecidableEq

namespace Notice

/-- The line that shows a notice. -/
def shown (n : Notice) : Text :=
  Text.ofString n.level.name ++ " " ++ Text.ofString n.topic.channel ++ ": " ++ n.text

end Notice

end SceneTemplates
