import TableShell.Flags

/-!
# Connections

How the service is reached. A connect command names the settings to change, and `Connection.overlay`
puts them over the settings in use. `Connection.ofCommandBy` has a library read the words of such a
command, the first of which is the verb; words that belong to no flag are not looked at.
-/

namespace TableShell

/-- The settings with which the service is reached. -/
structure Connection where
  profile : Option String := none
  region : Option String := none
  endpoint : Option String := none
  accessKey : Option String := none
  secretKey : Option String := none
  deriving DecidableEq, Repr

namespace Connection

/-- The settings, with those in `changes` put over them. -/
def overlay (base changes : Connection) : Connection where
  profile := changes.profile.or base.profile
  region := changes.region.or base.region
  endpoint := changes.endpoint.or base.endpoint
  accessKey := changes.accessKey.or base.accessKey
  secretKey := changes.secretKey.or base.secretKey

/-- At least one setting is given. -/
def isGiven (c : Connection) : Bool :=
  c.profile.isSome || c.region.isSome || c.endpoint.isSome || c.accessKey.isSome ||
    c.secretKey.isSome

/-- The access key and its secret, if both are set. -/
def credentials? (c : Connection) : Option (String × String) :=
  match c.accessKey, c.secretKey with
  | some id, some secret => some (id, secret)
  | _, _ => none

/-! ## Flags -/

/-- The flags that give settings. -/
def flags : List Flag :=
  [⟨"profile", some 'p', .value⟩, ⟨"region", some 'r', .value⟩, ⟨"endpoint", some 'E', .value⟩,
    ⟨"access_key", none, .value⟩, ⟨"secret_access_key", none, .value⟩]

/-- The settings that are the values of their flags. -/
def ofFlags (value? : (name : String) → Option String) : Connection where
  profile := value? "profile"
  region := value? "region"
  endpoint := value? "endpoint"
  accessKey := value? "access_key"
  secretKey := value? "secret_access_key"

/-- What may be given in a connect command. -/
def grammar : FlagGrammar where
  flags := flags
  maxWords := none
  allowsValue _ _ := true
  allowsWord _ := true

/-- The words of a connect command, without the semicolons it ends with. -/
def wordsOf (command : String) : List String :=
  (Text.words (Text.dropEndWhile (· == ';') (Text.trimmed command.toList))).map String.ofList

/-- The settings that a connect command gives, its words read by a library. -/
def ofCommandBy (parser : FlagParser) (command : String) : Except Error Connection :=
  match parser.parse grammar (wordsOf command) with
  | .ok found => .ok (ofFlags (parser.value? found))
  | .error (.fault fault) => .error (.connectFlags fault (Text.trim command))
  | .error (.atFlag ..) => .error (.connectFlags .unknown (Text.trim command))

/-- The settings that a connect command gives. -/
def ofCommand (command : String) : Except Error Connection := ofCommandBy .standard command

end Connection

end TableShell
