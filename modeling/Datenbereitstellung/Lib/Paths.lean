import Mathlib.Data.List.Basic

namespace Datenbereitstellung.Lib.Paths

variable {α ι : Type}

def walk (lookup : ι → List α → Option ι) (i : ι) (components : List (List α)) : Option ι :=
  components.foldlM lookup i

/-- What a path stands for. It is followed from the root if it begins with the separator, else
from `start`; the empty path stands for nothing. -/
def resolve [DecidableEq α] (sep : α) (lookup : ι → List α → Option ι) (root start : ι)
    (path : List α) : Option ι :=
  if path = [] then none
  else walk lookup (if path.head? = some sep then root else start) (path.splitOn sep)

theorem walk_append (lookup : ι → List α → Option ι) (i : ι) (cs ds : List (List α)) :
    walk lookup i (cs ++ ds) = (walk lookup i cs).bind fun j => walk lookup j ds := by
  unfold walk
  rw [List.foldlM_append]
  rfl

theorem walk_singleton (lookup : ι → List α → Option ι) (i : ι) (c : List α) :
    walk lookup i [c] = lookup i c := by
  unfold walk
  rw [List.foldlM_cons]
  cases lookup i c with
  | none => rfl
  | some j => rfl

section Resolve

variable [DecidableEq α] {sep : α} {lookup : ι → List α → Option ι} {root start : ι}

/-- The part behind a separator is followed from what stands before it. -/
theorem resolve_append_cons {path : List α} (hpath : path ≠ []) (rest : List α) :
    resolve sep lookup root start (path ++ sep :: rest) =
      (resolve sep lookup root start path).bind fun d => walk lookup d (rest.splitOn sep) := by
  have hhead : (path ++ sep :: rest).head? = path.head? := List.head?_append_of_ne_nil path hpath
  unfold resolve
  rw [if_neg (by simp), if_neg hpath, hhead, List.splitOn_append_cons_self, walk_append]

theorem resolve_append_cons_of_not_mem {path name : List α} (hpath : path ≠ [])
    (hname : sep ∉ name) :
    resolve sep lookup root start (path ++ sep :: name) =
      (resolve sep lookup root start path).bind fun d => lookup d name := by
  rw [resolve_append_cons hpath, List.splitOn_eq_singleton hname]
  apply congrArg
  funext d
  exact walk_singleton lookup d name

end Resolve

end Datenbereitstellung.Lib.Paths
