-- SUMMARY: Settings of the compiler.

/-!
# Settings
-/

namespace DocQuery

structure Settings where
  /-- The column that identifies a record within its table. -/
  identityColumn : String := "id"
  /-- A column that no record has. -/
  alwaysTrueColumn : String := "_fakeAlwaysTrue"
  /-- Whether `like` and `notLike` take upper and lower case for the same. -/
  caseInsensitiveLike : Bool := false
deriving DecidableEq, Repr

end DocQuery
