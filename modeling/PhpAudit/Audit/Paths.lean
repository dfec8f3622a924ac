/-!
# Paths as they are written

Settings and reports hold paths as texts. Here they are put together and cut without being read:
doubled slashes and dots stay as they are written.
-/

namespace PhpAudit.Audit

/-- The directory in which everything runs, as far as its name shows. -/
def workingDirectory : String := "/work"

/-- A text without the slashes at its end. -/
def withoutTrailingSlashes (text : String) : String :=
  String.ofList (text.toList.reverse.dropWhile (· == '/')).reverse

/-- A text with every backslash turned into a slash. -/
def withSlashes (text : String) : String :=
  String.ofList (text.toList.map fun c => if c == '\\' then '/' else c)

/-- A directory and one more segment: a segment that starts with a slash replaces the directory, and
one slash stands between them otherwise. -/
def withSegment (directory segment : String) : String :=
  if segment.toList.head? == some '/' then segment
  else if directory.isEmpty || directory.toList.getLast? == some '/' then directory ++ segment
  else directory ++ "/" ++ segment

/-- What stands in front of the files of a directory. -/
def directoryStart (directory : String) : String :=
  withoutTrailingSlashes (withSlashes directory) ++ "/"

/-- A file as seen from a directory, or as it is written when the directory does not stand in front
of it. From the working directory every file is seen as it is written. -/
def relativeTo (directory file : String) : String :=
  if directory.isEmpty || directory == "." then file
  else
    let start := (directoryStart directory).toList
    let whole := (withSlashes file).toList
    if start.isPrefixOf whole then String.ofList (whole.drop start.length) else file

end PhpAudit.Audit
