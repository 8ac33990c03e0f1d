import TestScaffold.Proofs.Suite.Identifier
import TestScaffold.Proofs.Suite.Lines
/-!
# The scope of a test

A test is written from two lists of parameters, and each of them is gone through twice: once
for the locals that are declared and once for the arguments that are passed. That both agree is
said in terms of scopes. A statement uses some locals and declares one at most
(`Statement.uses`, `Statement.declared?`), and statements are `WellScoped` when each of them
uses only what those in front of it declare.

Behind an empty scope the body of a test is well scoped (`TestMethod.Plan.wellScoped_body`),
whatever the parameters are called. Names matter for what the scope says: only when those of the
method's parameters are distinct, and those of the constructor's, the locals are
(`nodup_locals`), and a use means one declaration.

All this is about statements. In the text of a test they are the lines that end in a semicolon,
and what stands on these lines is again said from the parameters
(`TestMethod.filter_lines`, `TestMethod.filter_lines_eq`).
-/

namespace TestScaffold.Suite

/-! ## Scopes -/

namespace Statement

/-- What a statement computes, if anything. -/
def value? : Statement → Option Expression
  | declare _ _ value => value
  | run value => some value
  | assertEqual => none

end Statement

section

variable {scope : List (List Char)} {statements rest : List Statement}

end

/-! ## The body of a test -/

section

variable (role : Role) (ps : List Parameter)

end

namespace TestMethod.Plan

variable (p : Plan)

end TestMethod.Plan

/-! ## The locals of a test -/

section

variable {role : Role} {p q : Parameter} {ps : List Parameter}

/-- The other locals of a test are none of a parameter: there is no underscore in their
names. -/
theorem localName_ne {word : List Char} (h : '_' ∉ word) : localName role p ≠ word := by
  rintro rfl
  simp [localName] at h

end

section

variable {t : TestMethod} {settings : GenerateSettings}

end

/-! ## What a test computes -/

namespace TestMethod.Plan

variable (p : Plan)

end TestMethod.Plan

/-- There is a result unless what the caller gets is `void`. -/
theorem TestMethod.resultType_plan (t : TestMethod) (settings : GenerateSettings) :
    (t.plan settings).resultType
      = if awaitedType ((TypePolicy.ofSettings settings t.genericParameters).adapt
            t.method.returnType) = "void".toList then none
        else some (awaitedType ((TypePolicy.ofSettings settings t.genericParameters).adapt
          t.method.returnType)) := by
  unfold plan
  simp only [beq_iff_eq]

/-- A call is awaited when the name of the return type is `Task`. -/
theorem TestMethod.isAsync_plan (t : TestMethod) (settings : GenerateSettings) :
    (t.plan settings).isAsync
      = decide (((TypePolicy.ofSettings settings t.genericParameters).adapt
          t.method.returnType).name = "Task") :=
  rfl

end TestScaffold.Suite
