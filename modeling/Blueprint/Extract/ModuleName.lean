import Blueprint.Path

/-!
# Names of submodules

The submodules of a blueprint lie under the directory `modules` of its root, each in a directory of
its own name.
-/

namespace Blueprint

/-- The name that stands for the blueprint itself. -/
def rootModuleName : String := "root"

/-- The name of the submodule that a path leads to, seen from the root of the blueprint. Only names
that are text would count, and in a path, which is text, all of them are. -/
def moduleName (path root : String) : String :=
  match Path.stripComponents? (Path.components root) (Path.components path) with
  | none => rootModuleName
  | some inside =>
    match inside.filterMap Path.Component.name? with
    | "modules" :: name :: _ => name
    | _ => rootModuleName

end Blueprint
