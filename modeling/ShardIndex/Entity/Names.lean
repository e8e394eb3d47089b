import ShardIndex.Entity.Account
import ShardIndex.Rescan.Task
/-!
# Written names

Statuses, message kinds and rescan kinds are stored by name (`name`). A stored value is the name
itself, or an object whose only field has the name and no value. In logs they and the stages of a
task have other names (`label`).
-/
namespace ShardIndex

/-- The one of the values whose name is stored. -/
def Json.variant? {α : Type} (all : List α) (name : α → String) : Json → Option α
  | .string s => all.find? fun a => name a == s
  | .object [(s, .null)] => all.find? fun a => name a == s
  | _ => none

namespace AccountStatus

def all : List AccountStatus := [.nonexistent, .uninit, .active, .frozen]

/-- The name under which a status is stored. -/
def name : AccountStatus → String
  | .nonexistent => "non_exist"
  | .uninit => "uninit"
  | .active => "active"
  | .frozen => "frozen"

/-- The name of a status in logs. -/
def label : AccountStatus → String
  | .nonexistent => "NonExist"
  | .uninit => "Uninit"
  | .active => "Active"
  | .frozen => "Frozen"

def ofJson? : Json → Option AccountStatus := Json.variant? all name

theorem ofJson?_name (s : AccountStatus) : ofJson? (.string s.name) = some s := by
  cases s <;> decide

end AccountStatus

namespace MessageKind

def all : List MessageKind := [.internal, .externalIn, .externalOut]

/-- The name under which a message kind is stored. -/
def name : MessageKind → String
  | .internal => "internal"
  | .externalIn => "external_in"
  | .externalOut => "external_out"

/-- The name of a message kind in logs. -/
def label : MessageKind → String
  | .internal => "Internal"
  | .externalIn => "ExternalIn"
  | .externalOut => "ExternalOut"

def ofJson? : Json → Option MessageKind := Json.variant? all name

theorem ofJson?_name (k : MessageKind) : ofJson? (.string k.name) = some k := by
  cases k <;> decide

end MessageKind

namespace RescanKind

def all : List RescanKind :=
  [.addInterface, .updInterface, .delInterface, .addMethod, .updMethod, .delMethod, .updOperation,
   .delOperation]

/-- The name under which a rescan kind is stored. -/
def name : RescanKind → String
  | .addInterface => "add_interface"
  | .updInterface => "upd_interface"
  | .delInterface => "del_interface"
  | .addMethod => "add_get_method"
  | .updMethod => "upd_get_method"
  | .delMethod => "del_get_method"
  | .updOperation => "upd_operation"
  | .delOperation => "del_operation"

/-- The name of a rescan kind in logs. -/
def label : RescanKind → String
  | .addInterface => "AddInterface"
  | .updInterface => "UpdInterface"
  | .delInterface => "DelInterface"
  | .addMethod => "AddGetMethod"
  | .updMethod => "UpdGetMethod"
  | .delMethod => "DelGetMethod"
  | .updOperation => "UpdOperation"
  | .delOperation => "DelOperation"

def ofJson? : Json → Option RescanKind := Json.variant? all name

theorem ofJson?_name (k : RescanKind) : ofJson? (.string k.name) = some k := by
  cases k <;> decide

end RescanKind

/-- The name of a stage in logs. -/
def RescanState.label : RescanState → String
  | .pending => "Pending"
  | .accountsRescanning => "AccountsRescanning"
  | .messagesRescanning => "MessagesRescanning"
  | .finished => "Finished"

namespace DerivedField

def all : List DerivedField := [.content, .owner, .minter, .jettonBalance, .fake]

/-- The name of a derived field in logs. -/
def label : DerivedField → String
  | .content => "Content"
  | .owner => "OwnerAddress"
  | .minter => "MinterAddress"
  | .jettonBalance => "JettonBalance"
  | .fake => "Fake"

/-- The derived field with the name. -/
def ofLabel? (s : String) : Option DerivedField :=
  all.find? fun f => f.label == s

end DerivedField

end ShardIndex
