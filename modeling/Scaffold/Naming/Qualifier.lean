import Scaffold.Naming.ClassName
import Scaffold.Naming.Kind

/-! Qualified names. A name that is not under the root namespace yet is put under the namespace
that a selector derives from the root; a namespace segment counts only where it is occupied. -/

namespace Scaffold
open Text Naming

structure Qualifier where
  /-- The root namespace without separators at its ends. -/
  space : Text
  occupied : Text → Bool

namespace Qualifier

def under (root : Text) (occupied : Text → Bool) : Qualifier :=
  ⟨trim isSeparator root, occupied⟩

/-- The root namespace with its closing separator. -/
def root (q : Qualifier) : Text :=
  q.space ++ ['\\']

def rooted (q : Qualifier) (name : Text) : Bool :=
  (after? q.root name).isSome

theorem rooted_iff {q : Qualifier} {name : Text} :
    q.rooted name ↔ ∃ rest, name = q.root ++ rest := by
  simp [rooted, Option.isSome_iff_exists, after?_eq_some_iff]

def specified (q : Qualifier) (space segment : Text) : Text :=
  if q.occupied segment then space ++ '\\' :: segment else space

def selector (q : Qualifier) (kind : Kind) (space : Text) : Text :=
  q.specified space kind.segment

def normalised (name : Text) : Text :=
  backslashed (trim (fun c => c == '\\' || c == '/') (strip name))

/-- The name under the selected namespace, which has to be the root or below it. -/
def prefixed (q : Qualifier) (select : Text → Text) (name : Text) : Except Fault Text :=
  let space := select q.space
  if q.rooted (space ++ ['\\']) then .ok (space ++ '\\' :: name)
  else .error (.outsideRoot space q.root)

def qualifyBy (q : Qualifier) (select : Text → Text) (given : Text) : Except Fault Text :=
  let name := normalised given
  if strip (basename name) = [] then .error (.invalidName given)
  else if q.rooted name then .ok name
  else q.prefixed select name

def qualify (q : Qualifier) (kind : Kind) (given : Text) : Except Fault Text :=
  q.qualifyBy (q.selector kind) given

/-- The namespace that new classes of a kind go into. -/
def defaultNamespace (q : Qualifier) (kind : Kind) : Text :=
  q.selector kind q.space

theorem rooted_of_prefixed {q : Qualifier} {select : Text → Text} {name result : Text}
    (h : q.prefixed select name = .ok result) : q.rooted result := by
  rw [prefixed] at h
  split at h
  · next under =>
    obtain ⟨rest, eq⟩ := rooted_iff.1 under
    simp only [Except.ok.injEq] at h
    subst h
    refine rooted_iff.2 ⟨rest ++ name, ?_⟩
    rw [List.append_cons, eq, List.append_assoc]
  · simp at h

end Qualifier
end Scaffold
