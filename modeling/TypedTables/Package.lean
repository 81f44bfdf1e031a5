import TypedTables.Diagnostics
import TypedTables.Entity

/-!
Target packages: the package around an entity with a suffix, or else a fallback, which is reported.
-/

namespace TypedTables

structure PackageRule where
  suffix : String := ".generated"
  fallback : String := "tablegen.generated"
  failOnFallback : Bool := false
  deriving DecidableEq, Repr

def PackageRule.fallbackNotice (rule : PackageRule) (e : Entity) : Notice :=
  let message := s!"Couldn't calculate the target package! Using default: {rule.fallback}"
  if rule.failOnFallback then .error message (some e.simpleName) none
  else .warning message (some e.simpleName) none

def Entity.targetPackage (e : Entity) (rule : PackageRule) : String × List Notice :=
  match e.package? with
  | some package => (package ++ rule.suffix, [])
  | none => (rule.fallback, [rule.fallbackNotice e])

end TypedTables
