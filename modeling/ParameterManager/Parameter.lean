/-
Parameters, as the service shows them.

Every attribute but the name may be unset, and an unset attribute is not written at
all.  A table of labels without entries, or a policy member without principals, is set
all the same.
-/
import ParameterManager.Json.Record

namespace ParameterManager

open Json (Wire Field Record)

/-- How the payload of a parameter is written. -/
inductive ParameterFormat
  | unspecified
  | unformatted
  | yaml
  | json
  deriving DecidableEq, Repr

namespace ParameterFormat

/-- The format of a parameter that does not say. -/
instance : Inhabited ParameterFormat := ⟨unspecified⟩

def name : ParameterFormat → String
  | unspecified => "PARAMETER_FORMAT_UNSPECIFIED"
  | unformatted => "UNFORMATTED"
  | yaml => "YAML"
  | json => "JSON"

/-- All formats, in the order in which messages list them. -/
def all : List ParameterFormat := [unspecified, unformatted, yaml, json]

def wire : Wire ParameterFormat := .choice (all.map fun f => (f.name, f))

/-- A format as a value. -/
def toJson (f : ParameterFormat) : Json := .string f.name

end ParameterFormat

/-- An optional attribute as a member of an object: none if it is unset. -/
def memberOf {α : Type} (name : String) (toJson : α → Json) (value? : Option α) :
    List (String × Json) :=
  value?.toList.map fun a => (name, toJson a)

def textTable (t : Table String) : Json := .object (t.entries.map fun e => (e.1, .string e.2))

/-- The principals under which a parameter acts. -/
structure PolicyMember where
  uidPrincipal : Option String := none
  namePrincipal : Option String := none
  deriving DecidableEq, Inhabited

namespace PolicyMember

def record : Record PolicyMember where
  name := "ResourcePolicyMember"
  initial := {}
  fields := [
    .of "iamPolicyUidPrincipal" .optional (.optional .string) fun v m => { m with uidPrincipal := v },
    .of "iamPolicyNamePrincipal" .optional (.optional .string) fun v m =>
      { m with namePrincipal := v }]

def wire : Wire PolicyMember := record.wire

/-- A policy member as a value. -/
def toJson (m : PolicyMember) : Json :=
  .object (memberOf "iamPolicyUidPrincipal" .string m.uidPrincipal ++
    memberOf "iamPolicyNamePrincipal" .string m.namePrincipal)

end PolicyMember

structure Parameter where
  name : String := ""
  createTime : Option String := none
  updateTime : Option String := none
  labels : Option (Table String) := none
  format : Option ParameterFormat := none
  policyMember : Option PolicyMember := none
  kmsKey : Option String := none
  deriving DecidableEq, Inhabited

namespace Parameter

def record : Record Parameter where
  name := "Parameter"
  initial := {}
  fields := [
    .of "name" .defaulted .string fun v p => { p with name := v },
    .of "createTime" .optional (.optional .string) fun v p => { p with createTime := v },
    .of "updateTime" .optional (.optional .string) fun v p => { p with updateTime := v },
    .of "labels" .optional (.optional (.table .string)) fun v p => { p with labels := v },
    .of "format" .optional (.optional ParameterFormat.wire) fun v p => { p with format := v },
    .of "policyMember" .optional (.optional PolicyMember.wire) fun v p =>
      { p with policyMember := v },
    .of "kmsKey" .optional (.optional .string) fun v p => { p with kmsKey := v }]

def wire : Wire Parameter := record.wire

/-- The members of a parameter that are written. -/
def members (p : Parameter) : List (String × Json) :=
  ("name", .string p.name) ::
    (memberOf "createTime" .string p.createTime ++ memberOf "updateTime" .string p.updateTime ++
      memberOf "labels" textTable p.labels ++ memberOf "format" ParameterFormat.toJson p.format ++
      memberOf "policyMember" PolicyMember.toJson p.policyMember ++
      memberOf "kmsKey" .string p.kmsKey)

/-- A parameter as a value. -/
def toJson (p : Parameter) : Json := .object p.members

end Parameter

end ParameterManager
