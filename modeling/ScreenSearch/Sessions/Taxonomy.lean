import ScreenSearch.Lib.Text
import ScreenSearch.Traits.Sessions

/-!
# Recognition taxonomy

A taxonomy is an ordered list of entries; the first entry whose app, title and
exclusion tests all pass names the tool. Matching lowercases the window title
with the full Unicode tables, which are not part of this repository: they are
the parameter `lowercase` throughout.
-/

namespace ScreenSearch.Sessions

structure Recognized where
  id : String
  kind : SessionKind
  host : Option SessionHost
  deriving DecidableEq, Repr

/-- A parsed taxonomy entry: `parse` has normalized `appHints`, lowercased the
patterns and turned the prefix ranges into scalar intervals. -/
structure Entry where
  id : String
  kind : SessionKind
  host : Option SessionHost
  appHints : List String
  titlePatterns : List String
  titleExcludePatterns : List String
  prefixRanges : List (Nat × Nat)
  deriving Repr

structure Taxonomy where
  version : Nat
  entries : List Entry
  deriving Repr

def normalizeStem (value : String) : String :=
  let lower := Text.toAsciiLowercase (Text.trim value)
  (Text.stripSuffix ".exe" lower).getD lower

/-- The test one entry of `recognize` makes. -/
def Entry.accepts (entry : Entry) (app title : Option String) (titlePrefix : Option Nat) : Bool :=
  let appOk := entry.appHints.isEmpty ||
    app.any fun app => entry.appHints.any fun hint => app == hint
  let titleOk := (entry.titlePatterns.isEmpty && entry.prefixRanges.isEmpty) ||
    (title.any fun title => entry.titlePatterns.any fun pattern =>
      Text.contains title pattern) ||
    (titlePrefix.any fun scalar => entry.prefixRanges.any fun range =>
      decide (range.1 ≤ scalar) && decide (scalar ≤ range.2))
  let excluded := title.any fun title => entry.titleExcludePatterns.any fun pattern =>
    Text.contains title pattern
  appOk && titleOk && !excluded

def Taxonomy.recognize (taxonomy : Taxonomy) (lowercase : String → String)
    (appHint title : Option String) : Option Recognized :=
  let app := appHint.map normalizeStem
  let title := title.map lowercase
  if app.isNone && title.isNone then none
  else
    let titlePrefix := title.bind fun value =>
      (value.toList.find? fun c => !Text.isWhitespace c).map Char.toNat
    (taxonomy.entries.find? fun entry => entry.accepts app title titlePrefix).map fun entry =>
      { id := entry.id, kind := entry.kind, host := entry.host }

end ScreenSearch.Sessions
