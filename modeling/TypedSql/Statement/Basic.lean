import TypedSql.CompoundSelect
import TypedSql.Delete
import TypedSql.Update

/-!
# Statements

A `Draft` is a statement under construction; a `Statement` is one that is complete. Selects and
compound selects are always complete; of the others a statement holds the evidence.
-/

namespace TypedSql

/-- A complete statement. -/
inductive Statement
  | select (s : Select)
  | compound (c : CompoundSelect)
  | insert (i : Insert) (complete : i.IsComplete)
  | update (u : Update) (complete : u.IsComplete)
  | delete (d : Delete) (complete : d.IsComplete)

/-- A statement under construction. -/
inductive Draft
  | select (s : Select)
  | compound (c : CompoundSelect)
  | insert (i : Insert)
  | update (u : Update)
  | delete (d : Delete)

/-- The statement that a draft has become, if it is complete. -/
def Draft.finish? : Draft → Option Statement
  | .select s => some (.select s)
  | .compound c => some (.compound c)
  | .insert i => if h : i.IsComplete then some (.insert i h) else none
  | .update u => if h : u.IsComplete then some (.update u h) else none
  | .delete d => if h : d.IsComplete then some (.delete d h) else none

/-- The word that a statement starts with. -/
def Statement.verb : Statement → String
  | .select _ | .compound _ => "SELECT"
  | .insert _ _ => "INSERT"
  | .update _ _ => "UPDATE"
  | .delete _ _ => "DELETE"

end TypedSql
