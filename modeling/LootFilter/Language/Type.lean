/-!
# Types of rule expressions

Rules talk about scalars, records, lists that nest at most twice, collections of modifiers and stat
tables. A comparison mode and a criterion can only be passed on.
-/

namespace LootFilter

/-- A group of fields that all belong to the same item. -/
inductive Part where
  | gem
  | stack
  | sockets
  | charges
  | flask
  | requirements
  | armour
  | mods
  | area
  | map
  | mapOccupation
  | mapType
  | mapInfluence
  | attackSpeed
deriving DecidableEq, Repr

inductive RecordKind where
  | item
  | modifier
  | player
  | part (p : Part)
deriving DecidableEq, Repr

namespace RecordKind

def name : RecordKind → String
  | item => "ItemSnapshot"
  | modifier => "ItemMod"
  | player => "PlayerData"
  | part .gem => "SkillGemData"
  | part .stack => "StackData"
  | part .sockets => "SocketData"
  | part .charges => "ChargesData"
  | part .flask => "FlaskData"
  | part .requirements => "AttributeRequirementsData"
  | part .armour => "ArmourData"
  | part .mods => "ModsData"
  | part .area => "AreaData"
  | part .map => "MapData"
  | part .mapOccupation => "MapOccupationData"
  | part .mapType => "MapTypeData"
  | part .mapInfluence => "MapInfluenceData"
  | part .attackSpeed => "AttackSpeedData"

def all : List RecordKind :=
  [item, modifier, player, part .gem, part .stack, part .sockets, part .charges, part .flask,
   part .requirements, part .armour, part .mods, part .area, part .map, part .mapOccupation,
   part .mapType, part .mapInfluence, part .attackSpeed]

end RecordKind

inductive Scalar where
  | bool
  | int
  | real
  | text
deriving DecidableEq, Repr

def Scalar.name : Scalar → String
  | bool => "Boolean"
  | int => "Int64"
  | real => "Double"
  | text => "String"

inductive ElemTy where
  | scalar (s : Scalar)
  | record (k : RecordKind)
  | scalars (s : Scalar)
deriving DecidableEq, Repr

inductive Ty where
  | scalar (s : Scalar)
  | record (k : RecordKind)
  | list (e : ElemTy)
  | mods
  | intStats
  | realStats
  | comparison
  /-- A lambda that tests one element. -/
  | criterion (e : ElemTy)
deriving DecidableEq, Repr

namespace Ty

@[match_pattern] abbrev bool : Ty := scalar .bool

@[match_pattern] abbrev int : Ty := scalar .int

@[match_pattern] abbrev real : Ty := scalar .real

@[match_pattern] abbrev text : Ty := scalar .text

end Ty

namespace ElemTy

def toTy : ElemTy → Ty
  | scalar s => .scalar s
  | record k => .record k
  | scalars s => .list (.scalar s)

def name : ElemTy → String
  | scalar s => s.name
  | record k => k.name
  | scalars s => s.name ++ "[]"

end ElemTy

namespace Ty

def toElem? : Ty → Option ElemTy
  | scalar s => some (.scalar s)
  | record k => some (.record k)
  | list (.scalar s) => some (.scalars s)
  | _ => none

/-- The type of what is passed through when running over a value of this type. -/
def element? : Ty → Option Ty
  | list e => some e.toTy
  | mods => some (record .modifier)
  | _ => none

def isNumeric : Ty → Bool
  | int | real => true
  | _ => false

def isPrintable : Ty → Bool
  | scalar _ => true
  | _ => false

def name : Ty → String
  | scalar s => s.name
  | record k => k.name
  | list e => e.name ++ "[]"
  | mods => "ItemMod[]"
  | intStats => "StatTable<Int64>"
  | realStats => "StatTable<Double>"
  | comparison => "StringComparison"
  | criterion e => "Func<" ++ e.name ++ ", Boolean>"

/-- Whether a parameter of this type takes an argument of type `arg`: whole numbers may stand for
doubles, in lists too. -/
def accepts (param arg : Ty) : Bool :=
  param == arg ||
    match param, arg with
    | real, int => true
    | list (.scalar .real), list (.scalar .int) => true
    | list (.scalars .real), list (.scalars .int) => true
    | _, _ => false

def join? (a b : Ty) : Option Ty :=
  if a = b then some a else if a.isNumeric && b.isNumeric then some real else none

end Ty

end LootFilter
