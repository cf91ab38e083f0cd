import TransitionAudit.Trace.Basic
import TransitionAudit.Clock.Reading

/-!
# States of the screen

The two recordings of a screen: the windows the window manager knows, and the layers that are
composed into the picture.
-/

namespace TransitionAudit

structure Window where
  title : Text
  isVisible : Bool
  deriving DecidableEq, Repr

/-- The windows at one moment, and which of them has the focus. -/
structure WindowState where
  taken : Stamp
  windows : List Window
  focused : Option Text
  deriving DecidableEq, Repr

structure Layer where
  name : Text
  isVisible : Bool
  deriving DecidableEq, Repr

/-- The layers at one moment. -/
structure LayerState where
  taken : Stamp
  layers : List Layer
  deriving DecidableEq, Repr

namespace WindowState

def visibleWindows (s : WindowState) : List Window := s.windows.filter (·.isVisible)

instance : Snapshot WindowState where
  stamp := (·.taken)
  visible s := s.visibleWindows.map (·.title)
  agrees s t := s.taken.coincides t.taken && s.windows == t.windows && s.focused == t.focused
  words := ⟨"WindowManagerTrace", "window manager", "Window"⟩

end WindowState

namespace LayerState

def visibleLayers (s : LayerState) : List Layer := s.layers.filter (·.isVisible)

instance : Snapshot LayerState where
  stamp := (·.taken)
  visible s := s.visibleLayers.map (·.name)
  agrees s t := s.taken.coincides t.taken && s.layers == t.layers
  words := ⟨"LayersTrace", "layers", "Layer"⟩

end LayerState

abbrev WindowTrace := Trace WindowState

abbrev LayerTrace := Trace LayerState

end TransitionAudit
