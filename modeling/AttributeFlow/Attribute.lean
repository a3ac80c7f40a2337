/-!
# Attributes

An attribute is a named, typed value that every element of a dataset carries.
Name and type together identify it: `position` as a vector and `position` as a
scalar are unrelated attributes.

A catalogue lists the built-in attributes in a fixed order.  Three of them are
written by initialization itself, whether or not an operation declares the
write.
-/

namespace AttributeFlow

inductive ValueType where
  | float
  | float2
  | float3
  | float4
  | int32
  | uint32
  | bool
  deriving DecidableEq

namespace ValueType

def name : ValueType → String
  | .float => "float"
  | .float2 => "float2"
  | .float3 => "float3"
  | .float4 => "float4"
  | .int32 => "int"
  | .uint32 => "uint"
  | .bool => "bool"

def all : List ValueType :=
  [.float, .float2, .float3, .float4, .int32, .uint32, .bool]

def rank (valueType : ValueType) : Nat :=
  all.idxOf valueType

end ValueType

/-- A named, typed value of every element. -/
structure Attribute where
  name : String
  valueType : ValueType
  deriving DecidableEq

namespace Attribute

def position : Attribute := ⟨"position", .float3⟩
def velocity : Attribute := ⟨"velocity", .float3⟩
def color : Attribute := ⟨"color", .float3⟩
def alpha : Attribute := ⟨"alpha", .float⟩
def size : Attribute := ⟨"size", .float⟩
def lifetime : Attribute := ⟨"lifetime", .float⟩
def age : Attribute := ⟨"age", .float⟩
def alive : Attribute := ⟨"alive", .bool⟩
def seed : Attribute := ⟨"seed", .uint32⟩
def particleId : Attribute := ⟨"particleId", .uint32⟩
def phase : Attribute := ⟨"phase", .float⟩

/-- The built-in attributes, in catalogue order. -/
def catalogue : List Attribute :=
  [position, velocity, color, alpha, size, lifetime, age, alive, seed, particleId, phase]

def named? (name : String) : Option Attribute :=
  catalogue.find? fun attr => attr.name == name

/-- The attributes that initialization writes of its own accord. -/
def selfInitialized : List Attribute :=
  [seed, particleId, phase]

def isSelfInitialized (attr : Attribute) : Bool :=
  selfInitialized.contains attr

/-- The attribute in messages: its name, unescaped, and its type. -/
def display (attr : Attribute) : String :=
  attr.name ++ ": " ++ attr.valueType.name

/-- The order of attributes: by the characters of the name, then by type. -/
def isAtMost (first second : Attribute) : Bool :=
  if first.name = second.name then first.valueType.rank ≤ second.valueType.rank
  else first.name < second.name

def sort (attributes : List Attribute) : List Attribute :=
  attributes.mergeSort isAtMost

end Attribute

end AttributeFlow
