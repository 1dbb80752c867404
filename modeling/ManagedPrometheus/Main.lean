import ManagedPrometheus.Definition

/-!
# The definitions on standard output

Prints the definitions of all kinds.
-/

def main : IO Unit := IO.print ManagedPrometheus.definitionsText
