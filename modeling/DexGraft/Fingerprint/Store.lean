import DexGraft.Fingerprint.Basic
import DexGraft.NameMap

/-!
# Resolution stores

The places at which fingerprints were found, by the names of the fingerprints. A fingerprint with a
parent is searched in the class in which the parent was found.
-/

namespace DexGraft

structure ResolutionStore where
  results : NameMap Resolution := {}
deriving Repr

namespace ResolutionStore

def empty : ResolutionStore := {}

def get? (store : ResolutionStore) (name : String) : Option Resolution := store.results.get? name

def contains (store : ResolutionStore) (name : String) : Bool := store.results.contains name

def size (store : ResolutionStore) : Nat := store.results.size

def isEmpty (store : ResolutionStore) : Bool := store.results.isEmpty

/-- The result under a name, which has to be there. -/
def require (store : ResolutionStore) (name : String) : Except Error Resolution :=
  match store.get? name with
  | some resolution => .ok resolution
  | none => .error (.resolutionFailed name)

/-- Searches a fingerprint and keeps the result; without one, drops the result of that name. -/
def resolveScoped (store : ResolutionStore) (fingerprint : Fingerprint) (pool : ClassPool)
    (scope : Option Nat) : Except Error Resolution × ResolutionStore :=
  match fingerprint.resolve pool scope with
  | .ok resolution => (.ok resolution, ⟨store.results.insert fingerprint.name resolution⟩)
  | .error e => (.error e, ⟨store.results.erase fingerprint.name⟩)

/--
Searches a fingerprint, in the class of its parent if it has one. If there is no result for the
parent nothing is searched and the store stays as it is.
-/
def resolve (store : ResolutionStore) (fingerprint : Fingerprint) (pool : ClassPool) :
    Except Error Resolution × ResolutionStore :=
  match fingerprint.parent with
  | none => store.resolveScoped fingerprint pool none
  | some parent =>
    match store.get? parent with
    | some resolution => store.resolveScoped fingerprint pool (some resolution.inClass)
    | none => (.error (.parentNotResolved fingerprint.name parent), store)

/-- Searches a fingerprint in one class, whatever its parent. -/
def resolveIn (store : ResolutionStore) (fingerprint : Fingerprint) (pool : ClassPool)
    (inClass : Nat) : Except Error Resolution × ResolutionStore :=
  store.resolveScoped fingerprint pool (some inClass)

end ResolutionStore

end DexGraft
