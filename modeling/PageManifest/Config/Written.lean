import PageManifest.Charset.Readable
import PageManifest.Config.Basic
import PageManifest.Toml.Written

/-!
# Writing a configuration

A configuration is written as the table that would configure it.
-/

namespace PageManifest.Config

def entries (c : Config) : List (Text × Text) :=
  [("strategy".toList, c.strategy.name.toList), ("encoding".toList, c.encoding.toList),
   ("placeholder".toList, Charset.Utf8.readable c.placeholder),
   ("temp_prefix".toList, c.tempPrefix.toList)]

/-- The table as a document, under a comment that names its source. -/
def written (c : Config) : Text :=
  let origin := match c.source with
    | some path => Toml.writtenComment ("Loaded from " ++ path.toString).toList ++ ['\n']
    | none => []
  origin ++ Toml.writtenTable tableName.toList c.entries

end PageManifest.Config
