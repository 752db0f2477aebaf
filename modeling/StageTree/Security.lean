import StageTree.Files.Path
import StageTree.Text.Case
import StageTree.Text.Shape

/-!
# Sensitive files and secrets

A file is sensitive when the lower-cased name of its last part is one of a fixed set of names
(secrets, credentials, cluster configuration, environment files) or matches one of a fixed
set of wildcard patterns (keys, certificates, identity files); in a pattern `*` stands for any
run of characters and every other character for itself.

A text holds a secret when one of six shapes occurs in it: a private key header, an access key,
two kinds of personal access tokens, a storage account key, or a chat token. Each shape is a
literal start followed by runs of allowed characters of at least a given length; a header's
start and end must lie on one line. The secrets of a text are the descriptions of the shapes
found, in a fixed order.
-/

namespace StageTree.Security

open Text

/-- Names of files never read. -/
def skippedNames : List String :=
  ["secrets.yaml", "secrets.yml", "credentials.yaml", "credentials.yml", "kubeconfig",
    "kubeconfig.yaml", ".env", ".env.local", ".env.production"]

/-- Wildcard patterns of names of files never read. -/
def sensitivePatterns : List String :=
  ["*.secrets.yml", "*.secrets.yaml", "*.pem", "*.key", "*.pfx", "id_rsa*", "id_ed25519*"]

/-- Whether a name matches a wildcard pattern whose `*` stands for any run of characters. -/
def wildcardMatch : List Char → List Char → Bool
  | [], name => name.isEmpty
  | '*' :: rest, name => anySuffix (wildcardMatch rest) name
  | c :: rest, n :: name => c == n && wildcardMatch rest name
  | _ :: _, [] => false

/-- Whether a file name (a path text) names a sensitive file. -/
def isSensitiveName (path : String) : Bool :=
  let name := Text.lower (Files.baseName path)
  skippedNames.contains name ||
    sensitivePatterns.any fun p => wildcardMatch p.toList name.toList

/-- ASCII letters and digits. -/
def isAlnum (c : Char) : Bool := c.isAlpha || c.isDigit

/-- ASCII digits and upper-case letters. -/
def isUpperAlnum (c : Char) : Bool := c.isUpper || c.isDigit

/-- The secret shapes with their descriptions, in the order they are reported. -/
def secretShapes : List (List Text.Piece × String) :=
  [(literal "-----BEGIN" ++ [.run 0 (· != '\n')] ++ literal "PRIVATE KEY-----", "private key"),
   (literal "AKIA" ++ [.run 16 isUpperAlnum], "AWS access key"),
   (literal "ghp_" ++ [.run 36 isAlnum], "GitHub personal access token"),
   (literal "glpat-" ++ [.run 20 fun c => isAlnum c || c == '-' || c == '_'],
     "GitLab personal access token"),
   (literal "AccountKey=" ++ [.run 40 fun c => isAlnum c || c == '+' || c == '/' || c == '='],
     "Azure storage account key"),
   (literal "xox" ++ [.one fun c => "boaprs".toList.contains c] ++ literal "-" ++
     [.run 1 fun c => isAlnum c || c == '-'], "Slack token")]

/-- The descriptions of the secrets found in a text. -/
def secretsIn (content : String) : List String :=
  let cs := content.toList
  secretShapes.filterMap fun (pieces, description) =>
    if occursIn pieces cs then some description else none

end StageTree.Security
