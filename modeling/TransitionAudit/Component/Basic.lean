import TransitionAudit.Component.Matcher
import TransitionAudit.Transition.Basic

/-!
# Components

A component is a name that rules use, together with the way its matcher is found: once and for all,
or from the window changes of the transition under test.
-/

namespace TransitionAudit

/-- The part an app plays in a transition. -/
inductive Role
  | opening
  | closing
  deriving DecidableEq, Repr

namespace Role

def text : Role → Text
  | .opening => "opening"
  | .closing => "closing"

/-- The component that stands for the app in this role. -/
def component : Role → Text
  | .opening => "OPENING_APP"
  | .closing => "CLOSING_APP"

end Role

/-- The codes that findings carry for a fault. -/
inductive ErrorCode
  | ambiguousComponent
  | noComponent
  | malformedName
  | noTransition
  /-- A component that was not resolved for any other reason. -/
  | unresolved
  /-- Any other fault of a rule. -/
  | execution
  deriving DecidableEq, Repr

def ErrorCode.text : ErrorCode → Text
  | .ambiguousComponent => "AMBIGUOUS_COMPONENT"
  | .noComponent => "NO_COMPONENT"
  | .malformedName => "MALFORMED_COMPONENT_NAME"
  | .noTransition => "MISSING_ASSOCIATED_TRANSITION"
  | .unresolved => "COMPONENT_RESOLUTION_FAILED"
  | .execution => "RULE_EXECUTION_ERROR"

/-- Why a component has no matcher for a transition. -/
inductive ResolutionFault
  /-- Several windows play the role. -/
  | ambiguous (role : Role) (transition : Transition) (windows : List Text)
  /-- No window plays the role. -/
  | missing (role : Role) (transition : Transition)
  /-- The window's name is not of the form `package/Class`. -/
  | malformed (window : Text)
  /-- There is no transition to look at. -/
  | noTransition (role : Role)

namespace ResolutionFault

def message : ResolutionFault → Text
  | .ambiguous role t windows =>
    "Was not expecting more than one " ++ role.text ++ " window name for " ++ t.text ++ ", got " ++
      List.intercalate ", " windows
  | .missing role t => "No " ++ role.text ++ " windows for " ++ t.text
  | .malformed window =>
    "Failed to parse window name " ++ Text.quote window ++ " into package/class form"
  | .noTransition role => "Missing associated transition for " ++ role.component

def code : ResolutionFault → ErrorCode
  | .ambiguous .. => .ambiguousComponent
  | .missing .. => .noComponent
  | .malformed .. => .malformedName
  | .noTransition .. => .noTransition

end ResolutionFault

/-- The matcher of a window's component. -/
def Matcher.parse (window : Text) : Except ResolutionFault Matcher :=
  match Matcher.ofName? window with
  | some m => .ok m
  | none => .error (.malformed window)

/-! ## Roles in a transition -/

/-- Whether a window is the passing screen that is shown while an app starts. -/
def isSplashScreen (window : Text) : Bool :=
  let head : Text := "Splash Screen "
  let tail := window.drop head.length
  head.isPrefixOf window && !tail.isEmpty && tail.all fun p => p.shown.isLower || p = '.'

/-- Whether a change puts its window into the role. -/
def Change.plays : Role → Change → Bool
  | .opening, c => c.mode = .open || (c.mode = .toFront && !isSplashScreen c.window)
  | .closing, c => c.mode = .close || c.mode = .toBack

/-- The different windows in a role, in the order in which they first come up. -/
def Transition.windowsIn (role : Role) (t : Transition) : List Text :=
  ((t.changes.filter (Change.plays role)).map (·.window)).eraseDups

/-- The matcher of the one app in a role. -/
def Transition.resolve (role : Role) (t : Transition) : Except ResolutionFault Matcher :=
  match t.windowsIn role with
  | [] => .error (.missing role t)
  | [window] => Matcher.parse window
  | windows => .error (.ambiguous role t windows)

/-! ## Components -/

/-- Where the matcher of a component comes from. -/
inductive Origin
  | fixed (matcher : Matcher)
  | fromTransition (role : Role)
  deriving DecidableEq, Repr

structure Component where
  name : Text
  origin : Origin
  deriving DecidableEq, Repr

namespace Component

def needsTransition (c : Component) : Bool :=
  match c.origin with
  | .fixed _ => false
  | .fromTransition _ => true

/-- The matcher of a component for a transition, if there is one. -/
def resolve (c : Component) (t : Option Transition) : Except ResolutionFault Matcher :=
  match c.origin, t with
  | .fixed m, _ => .ok m
  | .fromTransition role, some t => t.resolve role
  | .fromTransition role, none => .error (.noTransition role)

def openingApp : Component := ⟨Role.component .opening, .fromTransition .opening⟩

def closingApp : Component := ⟨Role.component .closing, .fromTransition .closing⟩

def navigationBar : Component := ⟨"NAV_BAR", .fixed ⟨"", "NavigationBar0"⟩⟩

def statusBar : Component := ⟨"STATUS_BAR", .fixed ⟨"", "StatusBar"⟩⟩

def launcher : Component :=
  ⟨"LAUNCHER", .fixed ⟨"com.google.android.apps.nexuslauncher",
    "com.google.android.apps.nexuslauncher.NexusLauncherActivity"⟩⟩

/-- A component without a name that nothing belongs to; rule documents cannot name it. -/
def empty : Component := ⟨"", .fixed .nothing⟩

/-- The components that rule documents can name. -/
def known : List Component := [openingApp, closingApp, navigationBar, statusBar, launcher]

def ofName? (name : Text) : Option Component := known.find? fun c => c.name == name

end Component

end TransitionAudit
