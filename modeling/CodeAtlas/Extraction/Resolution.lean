import CodeAtlas.Extraction.Walk

/-!
# Resolution of called names

A callee is written as the code spells it. From what is known in the file it is made a qualified
name: words for the own value stand for the enclosing type, then come definitions of the file,
members of the enclosing type, imported names, and last the package.
-/

namespace CodeAtlas.Extraction

/-- The definition of a file that a name relative to the file's qualifier stands for. -/
def localDefinition? (ctx : Context) (found : Findings) (name : String) : Option String :=
  (found.drafts.find? fun draft =>
    Text.afterStart? (ctx.qualifier ++ ".") draft.qualifiedName == some name).map
      (·.qualifiedName)

/-- A name of that spelling is defined in the file. -/
def isDefined (found : Findings) (name : String) : Bool :=
  found.drafts.any (·.qualifiedName == name)

/-- The first segment of a dotted name, and the rest if there is one. -/
def headAndRest (callee : String) : String × Option String :=
  match Text.cutFirst? '.' callee.toList with
  | some (head, rest) => (String.ofList head, some (String.ofList rest))
  | none => (callee, none)

/-- The member of the enclosing type meant by a callee that starts with a word for the own value. -/
def selfMember? (ctx : Context) (selfType selfAlias : Option String) (callee : String) :
    Option String :=
  match selfType, headAndRest callee with
  | some owner, (head, some rest) =>
    if ctx.rules.selfNames.contains head || selfAlias == some head then
      some (Symbol.qualify owner rest)
    else none
  | _, _ => none

/-- The member of the enclosing type with the callee's name, if the file defines it. -/
def siblingMember? (found : Findings) (selfType : Option String) (callee : String) :
    Option String :=
  selfType.bind fun owner =>
    let member := Symbol.qualify owner callee
    if isDefined found member then some member else none

/-- A name below a definition of the file. -/
def belowLocal? (ctx : Context) (found : Findings) (callee : String) : Option String :=
  match headAndRest callee with
  | (head, some rest) => (localDefinition? ctx found head).map (Symbol.qualify · rest)
  | (_, none) => none

/-- A name whose first segment is imported. -/
def imported? (found : Findings) (callee : String) : Option String :=
  let (head, rest) := headAndRest callee
  (found.imports.lookup? head).map fun target =>
    match rest with
    | some rest => Symbol.qualify target rest
    | none => target

/-- A plain name of the package, unless it is built in. -/
def packageMember? (ctx : Context) (callee : String) : Option String :=
  if ctx.language.isPackageScoped && (headAndRest callee).2.isNone
      && !ctx.rules.builtins.contains callee then
    some (Symbol.qualify ctx.qualifier callee)
  else none

/-- The qualified name a callee stands for, as far as the file tells. -/
def resolve (ctx : Context) (found : Findings) (selfType selfAlias : Option String)
    (callee : String) : String :=
  ((selfMember? ctx selfType selfAlias callee).or
    ((localDefinition? ctx found callee).or
      ((siblingMember? found selfType callee).or
        ((belowLocal? ctx found callee).or
          ((imported? found callee).or
            (packageMember? ctx callee)))))).getD callee

end CodeAtlas.Extraction
