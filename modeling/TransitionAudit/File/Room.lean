import TransitionAudit.File.Path

/-!
# Room for nested data

The readers of JSON and YAML go into lists and objects by recursion, for which there is only so much room. How much
of it is left depends on who calls them: a rule file that another one names as its base is read further inside.
-/

namespace TransitionAudit

/-- The numbers of levels of lists and objects that readers can go into, that of YAML for each file. There is always
room for what is written here, of which reports lie deepest with their eight levels. -/
structure Room where
  json : Nat
  yaml : Path → Nat
  holdsReports : 8 ≤ json

theorem Room.rows_le (room : Room) : 3 ≤ room.json := Nat.le_trans (by decide) room.holdsReports

/-- The room that is left where nothing but the program is running. -/
def Room.usual : Room := ⟨985, fun _ => 485, by decide⟩

end TransitionAudit
