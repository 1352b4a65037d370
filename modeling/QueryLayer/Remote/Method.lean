/-! # Methods

What a server can be asked to do, and which of it is addressed to a collection.
-/
namespace QueryLayer

inductive Method where
  | handshake
  | schema
  | renderChart
  | list
  | create
  | update
  | delete
  | aggregate
  | execute
  | getForm
deriving DecidableEq

namespace Method

def all : List Method :=
  [handshake, schema, renderChart, list, create, update, delete, aggregate, execute, getForm]

def name : Method → String
  | handshake => "handshake"
  | schema => "schema"
  | renderChart => "renderChart"
  | list => "list"
  | create => "create"
  | update => "update"
  | delete => "delete"
  | aggregate => "aggregate"
  | execute => "execute"
  | getForm => "getForm"

def ofName? (s : String) : Option Method := all.find? fun m => m.name = s

@[simp] theorem ofName?_name (m : Method) : ofName? m.name = some m := by cases m <;> decide

def targetsCollection : Method → Bool
  | handshake | schema | renderChart => false
  | _ => true

end Method

end QueryLayer
