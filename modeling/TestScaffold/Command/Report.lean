import TestScaffold.Command.Write
import TestScaffold.Json.Printer
import TestScaffold.Model.Json
/-!
# Reports

What commands print as JSON: the classes of a document, and what was written.
-/

namespace TestScaffold

open Json (field fieldUnlessEmpty)

/-- The text of a report, which ends its last line. -/
def reportText (report : Json) : String :=
  report.pretty ++ "\n"

/-- The classes of a document by namespace, with the symbols that could not be
read. -/
def Intake.toJson (parsed : Intake) : Json :=
  .record (field "namespaces" (.array (parsed.namespaces.map Namespace.toJson))
    ++ field "failures" (.array (parsed.failures.map fun failure =>
      .record (field "symbol" (.text failure.symbol)
        ++ field "error" (.text failure.error.message)))))

/-- The word for what became of a file. -/
def WriteAction.word : WriteAction → String
  | created => "created"
  | appended => "appended"

/-- Write down a written test class. -/
def WrittenFile.toJson (file : WrittenFile) : Json :=
  .record (field "path" (.text file.path)
    ++ field "class_name" (.text file.className)
    ++ field "action" (.text file.action.word))

/-- Write down a document that failed. -/
def DocumentFailure.toJson (failure : DocumentFailure) : Json :=
  .record (field "source" (.text failure.source)
    ++ field "error" (.text failure.error.message))

/-- Write down what was written. -/
def WriteReport.toJson (report : WriteReport) : Json :=
  .record (field "project" (.text report.target.project.name)
    ++ field "namespace"
      (.text (report.target.settings.targetProjectNamespace.getD ""))
    ++ field "files" (.array (report.files.map WrittenFile.toJson))
    ++ field "usings_file" ((report.usingsFile.map Json.text).getD .null)
    ++ fieldUnlessEmpty "failures" report.failures DocumentFailure.toJson)

end TestScaffold
