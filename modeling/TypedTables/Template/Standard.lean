import TypedTables.Template.Basic

namespace TypedTables.Template

def settable : ColumnTest := .typeNotIn ["Link", "Unsupported"]

def parameters : TemplatePart :=
  .eachColumn settable [", ", .column "name", ": ", .column "param_type"]

def setters : TemplatePart :=
  .eachColumn settable [
    .whenColumn (.typeIn ["Binary"]) [
      .line ["        self._backend.set_binary(", .column "index", ", _row, memoryview(",
        .column "name", "))"]] [
      .whenColumn (.typeIn ["Variant"]) [
        .line ["        self._backend.set_mixed(", .column "index", ", _row, ",
          .column "field_type", ".of(", .column "name", "))"]] [
        .line ["        self._backend.set_", .accessor, "(", .column "index", ", _row, ",
          .column "name", ")"]]]]

def addTemplate : Template := [
  .line ["    def add(self", parameters, ") -> ", .value "entity", ":"],
  .lines [
    "        \"\"\"Append a row and return a cursor positioned on it.\"\"\"",
    "        _row = self._backend.add_empty_row()"],
  setters,
  .line ["        return ", .value "entity", "(self._backend, _row)"]]

def insertTemplate : Template := [
  .line ["    def insert(self, _row: int", parameters, ") -> ", .value "entity", ":"],
  .lines [
    "        \"\"\"Insert a row before ``_row`` and return a cursor positioned on it.\"\"\"",
    "        self._backend.insert_empty_row(_row)"],
  setters,
  .line ["        return ", .value "entity", "(self._backend, _row)"]]

def tableTemplate : Template := [
  .line [.value "header"],
  .line ["\"\"\"", .value "name", ": typed access to a table of ", .value "entity", " rows.\"\"\""],
  .lines [
    "from __future__ import annotations",
    ""],
  .eachImport [
    .line ["import ", .value "module"]],
  .lines [""],
  .line ["from .", .value "entity", " import ", .value "entity"],
  .line ["from .", .value "entity", "Query import ", .value "entity", "Query"],
  .line ["from .", .value "entity", "View import ", .value "entity", "View"],
  .lines [
    "",
    "COLUMNS = ("],
  .eachColumn .always [
    .line ["    (\"", .column "name", "\", \"", .column "type", "\"),"]],
  .lines [
    ")",
    "",
    ""],
  .line ["class ", .value "name", ":"],
  .line ["    \"\"\"Table of ", .value "entity", " rows",
    .whenPresent "is_nested" [", stored as a sub-table of its parent row"], ".\"\"\""],
  .lines [""],
  .line ["    nested = ", .value "is_nested"],
  .lines [
    "",
    "    def __init__(self, backend):",
    "        self._backend = backend",
    "        self._backend.ensure_columns(COLUMNS)",
    "",
    "    def __len__(self) -> int:",
    "        return self._backend.size()",
    ""],
  .line ["    def __getitem__(self, row: int) -> ", .value "entity", ":"],
  .lines [
    "        if row < 0:",
    "            row += len(self)",
    "        if not 0 <= row < len(self):",
    "            raise IndexError(row)"],
  .line ["        return ", .value "entity", "(self._backend, row)"],
  .lines [
    "",
    "    def __iter__(self):",
    "        for row in range(len(self)):"],
  .line ["            yield ", .value "entity", "(self._backend, row)"],
  .lines [""],
  .line [.value "add"],
  .line [.value "insert"],
  .lines [
    "    def remove(self, row: int) -> None:",
    "        self._backend.remove(row)",
    "",
    "    def clear(self) -> None:",
    "        self._backend.clear()",
    ""],
  .line ["    def where(self) -> ", .value "entity", "Query:"],
  .line ["        return ", .value "entity", "Query(self._backend)"],
  .lines [""],
  .line ["    def view(self, rows) -> ", .value "entity", "View:"],
  .line ["        return ", .value "entity", "View(self._backend, rows)"],
  .eachColumn (.typeIn ["Integer64", "Boolean", "String", "Date"]) [
    .lines [""],
    .line ["    def find_first_", .column "name", "(self, value: ", .column "param_type", ") -> ",
      .value "entity", " | None:"],
    .line ["        row = self._backend.find_first(", .column "index", ", value)"],
    .line ["        return None if row < 0 else ", .value "entity", "(self._backend, row)"]]]

def cursorTemplate : Template := [
  .line [.value "header"],
  .line ["\"\"\"", .value "name", ": cursor over one ", .value "entity", " row.\"\"\""],
  .lines [
    "from __future__ import annotations",
    ""],
  .eachImport [
    .line ["import ", .value "module"]],
  .lines [
    "",
    ""],
  .line ["class ", .value "name", ":"],
  .line ["    \"\"\"Typed accessors for the columns of one ", .value "entity", " row.\"\"\""],
  .lines [
    "",
    "    def __init__(self, backend, row: int):",
    "        self._backend = backend",
    "        self._row = row",
    "",
    "    @property",
    "    def row(self) -> int:",
    "        return self._row"],
  .eachColumn .always [
    .whenColumn (.typeIn ["Link"]) [
      .lines [
        "",
        "    @property"],
      .line ["    def ", .column "name", "(self):"],
      .line ["        \"\"\"Sub-table of ", .column "link_target", " rows.\"\"\""],
      .line ["        from .", .column "link_target", "Table import ", .column "link_target",
        "Table"],
      .line ["        return ", .column "link_target", "Table(self._backend.subtable(",
        .column "index", ", self._row))"]] [
      .whenColumn (.typeIn ["Unsupported"]) [
        .lines [""],
        .line ["    # ", .column "name", ": unsupported type ", .column "original_type",
          ", no accessor generated"]] [
        .lines [
          "",
          "    @property"],
        .line ["    def ", .column "name", "(self) -> ", .column "field_type", ":"],
        .line ["        return self._backend.get_", .accessor, "(", .column "index",
          ", self._row)"],
        .lines [""],
        .line ["    @", .column "name", ".setter"],
        .line ["    def ", .column "name", "(self, value: ", .column "param_type", ") -> None:"],
        .whenColumn (.typeIn ["Binary"]) [
          .lines ["        value = memoryview(value)"]] [
          .whenColumn (.typeIn ["Variant"]) [
            .line ["        value = ", .column "field_type", ".of(value)"]] []],
        .line ["        self._backend.set_", .accessor, "(", .column "index",
          ", self._row, value)"]]]],
  .lines [
    "",
    "    def as_dict(self) -> dict:",
    "        return \x7b"],
  .eachColumn settable [
    .line ["            \"", .column "name", "\": self.", .column "name", ","]],
  .lines [
    "        \x7d",
    "",
    "    def __repr__(self) -> str:"],
  .line ["        return f\"", .value "name", "(row=\x7bself._row\x7d)\""]]

def viewTemplate : Template := [
  .line [.value "header"],
  .line ["\"\"\"", .value "name", ": filtered view over ", .value "entity", " rows.\"\"\""],
  .lines [
    "from __future__ import annotations",
    ""],
  .line ["from .", .value "entity", " import ", .value "entity"],
  .lines [
    "",
    ""],
  .line ["class ", .value "name", ":"],
  .line ["    \"\"\"An ordered selection of rows of a ", .value "entity", " table.\"\"\""],
  .lines [
    "",
    "    def __init__(self, backend, rows):",
    "        self._backend = backend",
    "        self._rows = list(rows)",
    "",
    "    def __len__(self) -> int:",
    "        return len(self._rows)",
    ""],
  .line ["    def __getitem__(self, index: int) -> ", .value "entity", ":"],
  .line ["        return ", .value "entity", "(self._backend, self._rows[index])"],
  .lines [
    "",
    "    def __iter__(self):",
    "        for row in self._rows:"],
  .line ["            yield ", .value "entity", "(self._backend, row)"],
  .lines [
    "",
    "    @property",
    "    def rows(self) -> list[int]:",
    "        return list(self._rows)",
    "",
    "    def remove_all(self) -> None:",
    "        # highest row first so the remaining indices stay valid",
    "        for row in sorted(self._rows, reverse=True):",
    "            self._backend.remove(row)",
    "        self._rows.clear()"],
  .eachColumn (.typeIn ["Integer64"]) [
    .lines [""],
    .line ["    def sum_", .column "name", "(self) -> int:"],
    .line ["        return sum(self._backend.get_long(", .column "index",
      ", row) for row in self._rows)"],
    .lines [""],
    .line ["    def max_", .column "name", "(self) -> int | None:"],
    .line ["        return max((self._backend.get_long(", .column "index",
      ", row) for row in self._rows), default=None)"],
    .lines [""],
    .line ["    def min_", .column "name", "(self) -> int | None:"],
    .line ["        return min((self._backend.get_long(", .column "index",
      ", row) for row in self._rows), default=None)"]]]

def queryTemplate : Template := [
  .line [.value "header"],
  .line ["\"\"\"", .value "name", ": query builder over ", .value "entity", " rows.\"\"\""],
  .lines [
    "from __future__ import annotations",
    ""],
  .eachImport [
    .line ["import ", .value "module"]],
  .lines [""],
  .line ["from .", .value "entity", "View import ", .value "entity", "View"],
  .lines [
    "",
    ""],
  .line ["class ", .value "name", ":"],
  .lines [
    "    \"\"\"Accumulates column predicates; ``find_all`` runs them against the table.\"\"\"",
    "",
    "    def __init__(self, backend):",
    "        self._backend = backend",
    "        self._predicates: list[tuple[int, str, object]] = []",
    ""],
  .line ["    def _add(self, column: int, op: str, value) -> ", .value "name", ":"],
  .lines [
    "        self._predicates.append((column, op, value))",
    "        return self",
    "",
    "    @property",
    "    def predicates(self) -> list[tuple[int, str, object]]:",
    "        return list(self._predicates)"],
  .eachColumn .always [
    .whenColumn (.typeIn ["Integer64", "Date"]) [
      .lines [""],
      .line ["    def ", .column "name", "_equal(self, value: ", .column "param_type", ") -> ",
        .value "name", ":"],
      .line ["        return self._add(", .column "index", ", \"==\", value)"],
      .lines [""],
      .line ["    def ", .column "name", "_not_equal(self, value: ", .column "param_type", ") -> ",
        .value "name", ":"],
      .line ["        return self._add(", .column "index", ", \"!=\", value)"],
      .lines [""],
      .line ["    def ", .column "name", "_greater(self, value: ", .column "param_type", ") -> ",
        .value "name", ":"],
      .line ["        return self._add(", .column "index", ", \">\", value)"],
      .lines [""],
      .line ["    def ", .column "name", "_less(self, value: ", .column "param_type", ") -> ",
        .value "name", ":"],
      .line ["        return self._add(", .column "index", ", \"<\", value)"],
      .lines [""],
      .line ["    def ", .column "name", "_between(self, low: ", .column "param_type", ", high: ",
        .column "param_type", ") -> ", .value "name", ":"],
      .line ["        return self._add(", .column "index", ", \">=\", low)._add(", .column "index",
        ", \"<=\", high)"]] [
      .whenColumn (.typeIn ["String"]) [
        .lines [""],
        .line ["    def ", .column "name", "_equal(self, value: str) -> ", .value "name", ":"],
        .line ["        return self._add(", .column "index", ", \"==\", value)"],
        .lines [""],
        .line ["    def ", .column "name", "_not_equal(self, value: str) -> ", .value "name", ":"],
        .line ["        return self._add(", .column "index", ", \"!=\", value)"],
        .lines [""],
        .line ["    def ", .column "name", "_contains(self, value: str) -> ", .value "name", ":"],
        .line ["        return self._add(", .column "index", ", \"contains\", value)"],
        .lines [""],
        .line ["    def ", .column "name", "_startswith(self, value: str) -> ", .value "name", ":"],
        .line ["        return self._add(", .column "index", ", \"startswith\", value)"],
        .lines [""],
        .line ["    def ", .column "name", "_endswith(self, value: str) -> ", .value "name", ":"],
        .line ["        return self._add(", .column "index", ", \"endswith\", value)"]] [
        .whenColumn (.typeIn ["Boolean"]) [
          .lines [""],
          .line ["    def ", .column "name", "_equal(self, value: ", .column "param_type", ") -> ",
            .value "name", ":"],
          .line ["        return self._add(", .column "index", ", \"==\", value)"]] []]]],
  .lines [""],
  .line ["    def find_all(self) -> ", .value "entity", "View:"],
  .line ["        return ", .value "entity",
    "View(self._backend, self._backend.find(self._predicates))"],
  .lines [
    "",
    "    def count(self) -> int:",
    "        return len(self._backend.find(self._predicates))"]]

def standard : List (String × Template) := [
  ("table.py.j2", tableTemplate),
  ("cursor.py.j2", cursorTemplate),
  ("view.py.j2", viewTemplate),
  ("query.py.j2", queryTemplate),
  ("table_add.py.j2", addTemplate),
  ("table_insert.py.j2", insertTemplate)]

end TypedTables.Template
