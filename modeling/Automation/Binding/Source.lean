/-
Automation/Binding/Source.lean

Where names are looked up.

A table of values answers from what it holds, in any case of letters if it is
told to; the exact spelling comes first.  A secret store answers one secret at a
time, and a `Vault` in front of it remembers the answers that were there, so
that the store is asked again only for names it did not answer.
-/
import Automation.Text.Case
import Automation.Value.Basic

namespace Automation

/-- A store of secrets.  A secret is an object that holds its value under its
own name; a name that the store does not have makes the lookup fail. -/
structure SecretStore where
  name : String
  secrets : Fields Value

/-- What the store holds for a name; null if the lookup fails. -/
def SecretStore.answer (s : SecretStore) (name : String) : Value :=
  (s.secrets.at name).field name

/-- A place where names are looked up. -/
inductive Source
  | table (values : Fields Value) (anyCase : Bool)
  | secrets (store : SecretStore)

namespace Source

/-- A source without any name. -/
def empty : Source := .table [] false

/-- The value under a name, null if there is none. -/
def get (s : Source) (name : String) : Value :=
  match s with
  | .table values anyCase => match values.get? name with
    | some v => v
    | none =>
      if anyCase then
        ((values.find? fun f => Text.lower f.1 == Text.lower name).map (·.2)).getD .null
      else .null
  | .secrets store => store.answer name

/-- The name has a value. -/
def has (s : Source) (name : String) : Bool := !(s.get name).isNull

/-- Given values in any case of letters, over those of the surroundings. -/
def environment (surroundings given : Fields Value) : Source :=
  .table (surroundings.overlay given) true

end Source

/-- A secret store with the answers that it gave. -/
structure Vault where
  store : SecretStore
  kept : Fields Value

namespace Vault

/-- A vault that has asked for nothing. -/
def new (store : SecretStore) : Vault := ⟨store, []⟩

/-- Looks up a name.  The middle part tells whether the store was asked. -/
def get (v : Vault) (name : String) : Value × Bool × Vault :=
  match v.kept.get? name with
  | some kept => (kept, false, v)
  | none =>
    let answer := v.store.answer name
    (answer, true, if answer.isNull then v else { v with kept := v.kept.set name answer })

/-- Looks up names one after another; the first part lists those that the store
was asked for. -/
def visit (v : Vault) : List String → List String × Vault
  | [] => ([], v)
  | name :: names =>
    let (_, asked, v) := v.get name
    let (rest, v) := v.visit names
    (if asked then name :: rest else rest, v)

end Vault

end Automation
