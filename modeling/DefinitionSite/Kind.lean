/-! The kinds of definition site, in the order in which they are preferred. -/
namespace DefinitionSite

inductive Kind where
  | signatureSameLine
  | signatureNextLine
  | assignment
  | dataDecl
  | typeDecl
  | newtypeDecl
  | classDecl
  | constructor
  | typeFamily
  | dataFamily
  | patternSynonym
  deriving Repr, DecidableEq

namespace Kind

def all : List Kind :=
  [.signatureSameLine, .signatureNextLine, .assignment, .dataDecl, .typeDecl, .newtypeDecl,
    .classDecl, .constructor, .typeFamily, .dataFamily, .patternSynonym]

def name : Kind → String
  | .signatureSameLine => "signature_same_line"
  | .signatureNextLine => "signature_next_line"
  | .assignment => "assignment"
  | .dataDecl => "data_decl"
  | .typeDecl => "type_decl"
  | .newtypeDecl => "newtype_decl"
  | .classDecl => "class_decl"
  | .constructor => "constructor"
  | .typeFamily => "type_family"
  | .dataFamily => "data_family"
  | .patternSynonym => "pattern_synonym"

/-- The place of a kind in the order of preference; 0 is the most authoritative. -/
def priority : Kind → Nat
  | .signatureSameLine => 0
  | .signatureNextLine => 1
  | .assignment => 2
  | .dataDecl => 3
  | .typeDecl => 4
  | .newtypeDecl => 5
  | .classDecl => 6
  | .constructor => 7
  | .typeFamily => 8
  | .dataFamily => 9
  | .patternSynonym => 10

def isSignature : Kind → Bool
  | .signatureSameLine | .signatureNextLine => true
  | _ => false

def isSingleLine : Kind → Bool
  | .signatureNextLine | .constructor => false
  | _ => true

end Kind
end DefinitionSite
