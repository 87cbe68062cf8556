/-!
# Requests

A request says which piece of freight of which project goes where.  The freight
is known by its name or by its alias, and it goes into one stage or into every
stage that subscribes to one.  Exactly one of each pair is given, by the types.
-/

namespace FreightPromotion

/-- How the freight is identified. -/
inductive Freight where
  | named (name : String)
  | aliased (name : String)
deriving DecidableEq, Repr

/-- The name, if the freight is identified by it. -/
def Freight.name? : Freight → Option String
  | .named name => some name
  | .aliased _ => none

/-- The alias, if the freight is identified by it. -/
def Freight.alias? : Freight → Option String
  | .named _ => none
  | .aliased name => some name

/-- How the freight is mentioned in the log. -/
def Freight.description : Freight → String
  | .named name => "freight " ++ name
  | .aliased name => "freight alias " ++ name

/-- Where the freight goes. -/
inductive Selector where
  /-- Into this stage. -/
  | stage (name : String)
  /-- Into every stage that subscribes to this one. -/
  | subscribersOf (name : String)
deriving DecidableEq, Repr

/-- The stage that a selector mentions. -/
def Selector.stageName : Selector → String
  | .stage name => name
  | .subscribersOf name => name

/-- What is to be promoted, and where. -/
structure Request where
  project : String
  freight : Freight
  selector : Selector
deriving DecidableEq, Repr

end FreightPromotion
