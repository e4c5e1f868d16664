/-!
# Samples

A few BUILD files that together use every construct of the language.
-/

set_option autoImplicit false

namespace BuildLang

structure Sample where
  name : String
  lines : List String
  deriving Repr

namespace Sample

/-- The text of a sample: its lines, each with a newline behind it. -/
def text (sample : Sample) : String :=
  String.join (sample.lines.map (fun line => line ++ "\n"))

/-- Loads in no particular order, with symbols that keep or change their names. -/
def loads : Sample where
  name := "000-loads.BUILD"
  lines :=
    ["load(\"@npm//@bazel/typescript\", \"ts_library\", _bar = \"some_rule\")",
      "load(\"//tools:defs.bzl\", alias = \"zeta\", \"alpha\")",
      "load(\"@npm//@angular/bazel\", \"ng_module\")"]

/-- A rule with repeated attributes, globs and a name bound to a value. -/
def tsLibrary : Sample where
  name := "010-ts-library.BUILD"
  lines :=
    ["load(\"@npm//@bazel/typescript\", \"ts_library\", _bar = \"some_rule\")",
      "load(\"@npm//@angular/bazel\", \"ng_module\")",
      "",
      "VALUE = True",
      "VALUE_ONE = glob([\"**/*.ts\", VALUE], exclude = [])",
      "",
      "exports_files([\"ts\"])",
      "",
      "ts_library(",
      "    name = \"foo\",",
      "    foo = VALUE,",
      "    srcs = [\"main.ts\", SOME_VAR],",
      "    linting = True,",
      "    auto_deps = 0,",
      "    deps = 1,",
      "    num = 123409876,",
      "    deps = glob([\"**/*.ts\"], exclude = [])",
      ")",
      "",
      "_bar(name = \"sheep\")"]

def containerBundle : Sample where
  name := "020-container-bundle-dict.BUILD"
  lines :=
    ["load(\"@io_bazel_rules_docker//container:container.bzl\", \"container_bundle\")",
      "",
      "container_bundle(",
      "    name = \"containers\",",
      "    images = \x7b",
      "        \"registry.example.com/services/monitor:latest\": \"//services/monitor:monitor_container\",",
      "        \"registry.example.com/services/config:latest\": \"//services/config\",",
      "        \"registry.example.com/services/db:latest\": \"//services/db:db\",",
      "        \"registry.example.com/services/queue:latest\": \"//services/queue\"",
      "    \x7d",
      ")"]

/-- Choices by a dict written in place and by the name of one. -/
def conditions : Sample where
  name := "030-select.BUILD"
  lines :=
    ["load(\"@rules_cc//cc:defs.bzl\", \"cc_library\")",
      "",
      "CONDITIONS = \x7b",
      "    \"//conditions:linux\": [\"linux.cc\"],",
      "    \"//conditions:default\": [],",
      "\x7d",
      "",
      "cc_library(",
      "    name = \"platform\",",
      "    srcs = select(\x7b",
      "        \"//conditions:darwin\": [\"darwin.cc\"],",
      "        \"//conditions:default\": [\"generic.cc\"],",
      "    \x7d, no_match_error = \"unsupported platform\"),",
      "    hdrs = select(CONDITIONS),",
      "    copts = [\"-O2\", -1, 2.5e3]",
      ")"]

def packages : Sample where
  name := "040-package.BUILD"
  lines :=
    ["load(\"@rules_pkg//:pkg.bzl\", \"pkg_tar\")",
      "",
      "SRCS = glob(include = [\"**/*.txt\"], exclude = [\"tmp/**\"],)",
      "",
      "exports_files([\"LICENSE\", \"README.md\"], visibility = [\"//visibility:public\"],)",
      "",
      "pkg_tar(",
      "    name = \"docs\",",
      "    srcs = SRCS,",
      "    mode = \"0644\"",
      ")",
      "",
      "package(",
      "    default_visibility = [\"//visibility:private\"],",
      "    default_testonly = False,",
      "    licenses = [\"notice\"],",
      ")",
      "",
      "package_group(",
      "    name = \"friends\",",
      "    packages = [\"//app/...\", \"//lib/...\"],",
      ")"]

def all : List Sample :=
  [loads, tsLibrary, containerBundle, conditions, packages]

def find? (name : String) : Option Sample :=
  all.find? (fun sample => sample.name = name)

end Sample

end BuildLang
