/-!
Module specifiers: the written form of a resolved package, and the names that a
caller keeps out of a bundle.
-/

namespace EsmBundle.Specifier

/-- The protocols of packages that are fetched from elsewhere. -/
def externalProtocols : List (List Char) :=
  ["npm:".toList, "jsr:".toList, "https:".toList]

/-- A specifier that names a package elsewhere. -/
def isExternal (specifier : String) : Bool :=
  externalProtocols.any fun protocol => protocol.isPrefixOf specifier.toList

/-- The characters without a slash that stands right after `npm:` or `jsr:`. -/
def dropSlash : List Char → List Char
  | 'n' :: 'p' :: 'm' :: ':' :: '/' :: rest => 'n' :: 'p' :: 'm' :: ':' :: rest
  | 'j' :: 's' :: 'r' :: ':' :: '/' :: rest => 'j' :: 's' :: 'r' :: ':' :: rest
  | cs => cs

/-- The specifier in its plain form: a registry's protocol is followed by no slash of its own. -/
def normalize (specifier : String) : String :=
  String.ofList (dropSlash specifier.toList)

/-- A bare specifier is covered by the names that it begins with, so `h3` covers
`h3/router` too. -/
def isCovered (bare : String) (names : List String) : Bool :=
  names.any fun name => name.toList.isPrefixOf bare.toList

end EsmBundle.Specifier
