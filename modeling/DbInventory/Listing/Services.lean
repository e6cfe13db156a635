/-
# DbInventory.Listing.Services -- the services that a read asks

A read asks two services: one lists instances by a filter, the other gives the tags of one
resource. Both are functions that also step a state of their own, so that a service may answer
the same question differently later. `Services.logged` keeps a record of the calls beside that
state.
-/

import DbInventory.Instance.Basic

namespace DbInventory

/-- Which instances to list; a missing value does not filter. -/
structure InstanceFilter where
  instanceId : Option String
  projectId : Option Int64
  vpcId : Option String
  subnetId : Option String
  deriving DecidableEq

/-- A resource whose tags are asked for. -/
structure TagQuery where
  serviceType : String
  resourceType : String
  region : String
  resourceId : String
  deriving DecidableEq

/-- Why a service did not answer. -/
inductive ServiceError where
  | provider (text : String)
  | unavailable (text : String)
  deriving DecidableEq

def ServiceError.message : ServiceError → String
  | .provider text => "tencentcloud error: " ++ text
  | .unavailable text => "service unavailable: " ++ text

/-- The two services, with a state that each call steps. -/
structure Services (σ : Type) where
  list : InstanceFilter → σ → Except ServiceError (List DbInstance) × σ
  tags : TagQuery → σ → Except ServiceError (Dict String) × σ

/-! ## Calls -/

/-- A call of a service. -/
inductive ServiceCall where
  | list (filter : InstanceFilter)
  | tags (query : TagQuery)
  deriving DecidableEq

/-- The same services, with the calls so far, in order, beside the state. -/
def Services.logged (services : Services σ) : Services (σ × List ServiceCall) where
  list filter := fun (s, calls) =>
    let (answer, s) := services.list filter s
    (answer, s, calls ++ [.list filter])
  tags query := fun (s, calls) =>
    let (answer, s) := services.tags query s
    (answer, s, calls ++ [.tags query])

end DbInventory
