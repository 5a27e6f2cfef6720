import Bindery.Emit.Build.Recipe
import Bindery.Emit.PlatformServices

/-!
# Makefiles

A makefile runs the generator again when the description changes, builds the
shared library of the host, and packages one artifact for each family of
platforms.
-/

namespace Bindery.Build

/-- The symbols that a WebAssembly module exports: the allocator, then every
operation. -/
def wasmExports (ctx : Context) : List String :=
  ["_malloc", "_free"] ++ ctx.api.operations.map fun op => "_" ++ op.symbol ctx.apiName

/-- The list of exported symbols between brackets, each between quotes. -/
def wasmExportList (ctx : Context) : String :=
  "[" ++ ",".intercalate ((wasmExports ctx).map fun n => "\"" ++ n ++ "\"") ++ "]"

/-- What a makefile depends on. -/
structure Makefile where
  ctx : Context
  language : Language

namespace Makefile

/-- The families of platforms. -/
def families (mk : Makefile) : List Platform := Platform.ofTargets mk.ctx.api.effectiveTargets

/-- Whether a family is built for. -/
def has (mk : Makefile) (p : Platform) : Bool := mk.families.contains p

/-- Lines if a family is built for. -/
def when (mk : Makefile) (p : Platform) (ls : List Line) : List Line :=
  if mk.has p then ls else []

/-- A rule: its head and its recipe. -/
def rule (head : String) (recipe : List String) : List Line :=
  Code.lines [head] ++ Code.indent (Code.lines recipe)

/-- The variables. -/
def variableLines (mk : Makefile) : List Line :=
  let api := mk.ctx.apiName
  Code.lines [
      "SHELL       := /bin/sh",
      "XPLATTER    ?= xplatter",
      "API_DEF     := " ++ mk.ctx.sourceName,
      "IMPL_LANG   := " ++ mk.language.name,
      "API_NAME    := " ++ api,
      "LIB_NAME    := lib$(API_NAME)",
      "PASCAL_NAME := " ++ mk.ctx.pascalApi,
      "BUILD_MACRO := " ++ Naming.buildMacro api,
      "GEN_DIR     := " ++ mk.ctx.generatedDir ++ "/",
      "BUILD_DIR   := build",
      "DIST_DIR    := dist",
      "STAMP       := $(BUILD_DIR)/.codegen.stamp",
      "",
      "TARGETS ?= " ++ " ".intercalate (mk.families.map Platform.family),
      "",
      "HOST_OS := $(shell uname -s)",
      "ifeq ($(HOST_OS),Darwin)",
      "DYLIB_EXT := dylib",
      "else",
      "DYLIB_EXT := so",
      "endif",
      "SHARED_LIB := $(BUILD_DIR)/$(LIB_NAME).$(DYLIB_EXT)",
      "",
      "GEN_HEADER := $(GEN_DIR)$(API_NAME).h"]
    ++ (if mk.has .ios || mk.ctx.api.hasTarget .macos then
        Code.lines ["GEN_SWIFT_BINDING  := $(GEN_DIR)$(PASCAL_NAME).swift"]
      else [])
    ++ mk.when .android (Code.lines [
      "GEN_KOTLIN_BINDING := $(GEN_DIR)$(PASCAL_NAME).kt",
      "GEN_JNI_SOURCE     := $(GEN_DIR)$(API_NAME)_jni.c"])
    ++ mk.when .web (Code.lines [
      "GEN_JS_BINDING     := $(GEN_DIR)$(API_NAME).js",
      "",
      "WASM_EXPORTS := " ++ wasmExportList mk.ctx])
    ++ [Line.blank]

/-- The toolchain. -/
def toolchainLines (mk : Makefile) : List Line :=
  Code.lines ["# Toolchain", ""]
    ++ mk.when .ios (Code.lines ["IOS_MIN         ?= 15.0"])
    ++ mk.when .android (Code.lines [
      "ANDROID_MIN_API ?= 24",
      "ANDROID_NDK_HOME ?= $(ANDROID_HOME)/ndk-bundle",
      "NDK_BIN := $(wildcard $(ANDROID_NDK_HOME)/toolchains/llvm/prebuilt/*/bin)"])
    ++ mk.when .web (Code.lines (webCompilers mk.language))
    ++ Code.lines (["PLATFORM_SERVICES := " ++ Platform.servicesDir]
      ++ toolchainVariables mk.language ++ [""])

/-- The generator's own rule. For Go the generated sources are copied, as only the
package root is compiled. -/
def codegenLines (mk : Makefile) : List Line :=
  Code.lines ["# Codegen", "", ".DEFAULT_GOAL := build", ""]
    ++ rule "$(STAMP): $(API_DEF)"
      (["@mkdir -p $(BUILD_DIR)",
          "$(XPLATTER) generate --impl-lang " ++ mk.language.name ++ " -o " ++ mk.ctx.generatedDir
            ++ " $(API_DEF)"]
        ++ (if mk.language = .go then ["cp $(GEN_DIR)$(API_NAME)_*.go ."] else [])
        ++ ["@touch $@"])
    ++ Code.lines ["", "$(GEN_HEADER): $(STAMP)", ""]

/-- The shared library of the host, and cleaning up. -/
def localLines (mk : Makefile) : List Line :=
  Code.lines ["# Local build", "", ".PHONY: shared-lib clean", "", "shared-lib: $(SHARED_LIB)", ""]
    ++ rule "$(SHARED_LIB): $(STAMP)" ("@mkdir -p $(BUILD_DIR)" :: sharedLibrary mk.language)
    ++ (if mk.language = .go then []
      else rule "ifeq ($(HOST_OS),Darwin)" ["install_name_tool -id @rpath/$(LIB_NAME).$(DYLIB_EXT) $@"]
        ++ Code.lines ["endif"])
    ++ [Line.blank]
    ++ rule "clean:"
      ((if mk.language = .rust then ["$(CARGO) clean"] else [])
        ++ ["rm -rf " ++ mk.ctx.generatedDir ++ " $(BUILD_DIR) $(DIST_DIR)"]
        ++ if mk.language = .go then ["rm -f $(GEN_GO_COPIES)"] else [])
    ++ [Line.blank]

/-- The calls of a rule template, one for each row of its arguments. -/
def calls (template : String) (rows : List (List String)) : List Line :=
  Code.lines (rows.map fun row =>
    "$(eval $(call " ++ template ++ "," ++ ",".intercalate row ++ "))")

/-- The package for iOS. -/
def iosLines (mk : Makefile) : List Line :=
  Code.lines [
      "# iOS: static library per slice, simulator slices merged, wrapped in an XCFramework",
      "",
      "# $(1) = arch dir, $(2) = sdk, $(3) = clang target, $(4) = rust triple, $(5) = GOARCH",
      "define BUILD_IOS_ARCH",
      ""]
    ++ rule "$(DIST_DIR)/ios/obj/$(1)/$(LIB_NAME).a: $(STAMP)"
      ("@mkdir -p $$(dir $$@)" :: iosLibrary mk.language)
    ++ Code.lines ["", "endef", ""]
    ++ calls "BUILD_IOS_ARCH" iosSlices
    ++ Code.lines [
      "",
      "IOS_DEVICE_LIB := $(DIST_DIR)/ios/obj/ios-arm64/$(LIB_NAME).a",
      "IOS_SIM_LIBS   := $(DIST_DIR)/ios/obj/ios-sim-arm64/$(LIB_NAME).a $(DIST_DIR)/ios/obj/ios-sim-x86_64/$(LIB_NAME).a",
      "IOS_SIM_LIB    := $(DIST_DIR)/ios/obj/ios-sim/$(LIB_NAME).a",
      "IOS_XCFRAMEWORK := $(DIST_DIR)/ios/$(PASCAL_NAME).xcframework",
      "",
      ".PHONY: package-ios",
      "",
      "package-ios: $(IOS_XCFRAMEWORK)",
      ""]
    ++ rule "$(IOS_XCFRAMEWORK): $(IOS_DEVICE_LIB) $(IOS_SIM_LIBS)" [
      "@mkdir -p $(dir $(IOS_SIM_LIB)) $(DIST_DIR)/ios/include",
      "lipo -create $(IOS_SIM_LIBS) -output $(IOS_SIM_LIB)",
      "cp $(GEN_HEADER) $(DIST_DIR)/ios/include/",
      "rm -rf $@",
      "xcodebuild -create-xcframework \\",
      "\t-library $(IOS_DEVICE_LIB) -headers $(DIST_DIR)/ios/include \\",
      "\t-library $(IOS_SIM_LIB) -headers $(DIST_DIR)/ios/include \\",
      "\t-output $@",
      "cp $(GEN_SWIFT_BINDING) $(DIST_DIR)/ios/"]
    ++ [Line.blank]

/-- The package for Android. -/
def androidLines (mk : Makefile) : List Line :=
  Code.lines [
      "# Android: one shared library per ABI with the JNI bridge linked in",
      "",
      "# $(1) = ABI, $(2) = NDK clang prefix, $(3) = rust triple, $(4) = GOARCH, $(5) = extra go env",
      "define BUILD_ANDROID_ABI",
      ""]
    ++ rule "$(DIST_DIR)/android/src/main/jniLibs/$(1)/$(LIB_NAME).so: $(STAMP)"
      ("@mkdir -p $$(dir $$@) $(DIST_DIR)/android/obj/$(1)" :: androidLibrary mk.language)
    ++ Code.lines ["", "endef", ""]
    ++ calls "BUILD_ANDROID_ABI" androidAbis
    ++ Code.lines [
      "",
      "ANDROID_LIBS := $(foreach abi," ++ " ".intercalate (androidAbis.filterMap (·.head?))
        ++ ",$(DIST_DIR)/android/src/main/jniLibs/$(abi)/$(LIB_NAME).so)",
      "",
      ".PHONY: package-android",
      ""]
    ++ rule "package-android: $(ANDROID_LIBS)" [
      "@mkdir -p $(DIST_DIR)/android/src/main/kotlin",
      "cp $(GEN_KOTLIN_BINDING) $(DIST_DIR)/android/src/main/kotlin/"]
    ++ [Line.blank]

/-- The package for the web. -/
def webLines (mk : Makefile) : List Line :=
  Code.lines [
      "# Web: a standalone WebAssembly module next to the JS binding",
      "",
      "WASM_MODULE := $(DIST_DIR)/web/$(API_NAME).wasm",
      "",
      ".PHONY: package-web",
      ""]
    ++ rule "package-web: $(WASM_MODULE)" ["cp $(GEN_JS_BINDING) $(DIST_DIR)/web/"]
    ++ [Line.blank]
    ++ rule "$(WASM_MODULE): $(STAMP)" ("@mkdir -p $(dir $@)" :: webModule mk.language)
    ++ [Line.blank]

/-- The package for the desktop. -/
def desktopLines : List Line :=
  Code.lines ["# Desktop: the host shared library and its header", "", ".PHONY: package-desktop", ""]
    ++ rule "package-desktop: $(SHARED_LIB)" [
      "@mkdir -p $(DIST_DIR)/desktop/include $(DIST_DIR)/desktop/lib",
      "cp $(GEN_HEADER) $(DIST_DIR)/desktop/include/",
      "cp $(SHARED_LIB) $(DIST_DIR)/desktop/lib/"]
    ++ [Line.blank]

/-- The goals that gather all packages. -/
def aggregateLines : List Line :=
  Code.lines ["# Aggregate", "", ".PHONY: packages build", "",
    "packages: $(addprefix package-,$(TARGETS))", "", "build: packages"]

/-- The lines of the makefile. -/
def lines (mk : Makefile) : List Line :=
  mk.variableLines ++ mk.toolchainLines ++ mk.codegenLines ++ mk.localLines
    ++ mk.when .ios mk.iosLines
    ++ mk.when .android mk.androidLines
    ++ mk.when .web mk.webLines
    ++ mk.when .desktop desktopLines
    ++ aggregateLines

/-- The makefile as a file of the project. -/
def artifact (mk : Makefile) : Artifact :=
  (mk.ctx.scaffoldFile .hash "Makefile" Code.tab mk.lines).inProject

end Makefile

end Bindery.Build
