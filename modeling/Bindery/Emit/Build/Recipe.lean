import Bindery.Code.Line
import Bindery.Vocabulary.Language

/-!
# Recipes

What the makefile runs to compile, language by language: the variables of the
toolchain, the shared library of the host, one library for each slice of iOS and
each binary interface of Android, and the WebAssembly module.
-/

namespace Bindery.Build

/-- The variables of a language's toolchain. -/
def toolchainVariables : Language → List String
  | .c =>
    ["CC          ?= cc",
      "CFLAGS      := -std=c17 -Wall -Wextra -I$(GEN_DIR)",
      "LIB_C_FLAGS := $(CFLAGS) -fvisibility=hidden -D$(BUILD_MACRO)",
      "IMPL_SOURCES := $(API_NAME)_impl.c"]
  | .cpp =>
    ["CXX           ?= c++",
      "CC            ?= cc",
      "LIB_CXX_FLAGS := -std=c++20 -Wall -Wextra -I$(GEN_DIR) -fvisibility=hidden -D$(BUILD_MACRO)",
      "LIB_C_FLAGS   := -std=c17 -Wall -Wextra -I$(GEN_DIR) -fvisibility=hidden -D$(BUILD_MACRO)",
      "IMPL_SOURCES  := $(GEN_DIR)$(API_NAME)_impl.cpp $(GEN_DIR)$(API_NAME)_shim.cpp"]
  | .rust =>
    ["CARGO       ?= cargo",
      "LIB_C_FLAGS := -std=c17 -Wall -Wextra -I$(GEN_DIR) -fvisibility=hidden -D$(BUILD_MACRO)"]
  | .go =>
    ["GO ?= go",
      "GEN_GO_SOURCES := $(wildcard $(GEN_DIR)$(API_NAME)_*.go)",
      "GEN_GO_COPIES  := $(notdir $(GEN_GO_SOURCES))"]

/-- The compilers of the web toolchain. -/
def webCompilers : Language → List String
  | .c => ["EMCC ?= emcc"]
  | .cpp => ["EMCC ?= emcc", "EMXX ?= em++"]
  | .rust | .go => []

/-- How the shared library of the host is made. -/
def sharedLibrary : Language → List String
  | .c =>
    ["$(CC) $(LIB_C_FLAGS) -shared -fPIC -o $@ $(IMPL_SOURCES) $(PLATFORM_SERVICES)/desktop.c"]
  | .cpp =>
    ["$(CC) $(LIB_C_FLAGS) -fPIC -c -o $(BUILD_DIR)/desktop.o $(PLATFORM_SERVICES)/desktop.c",
      "$(CXX) $(LIB_CXX_FLAGS) -shared -fPIC -o $@ $(IMPL_SOURCES) $(BUILD_DIR)/desktop.o"]
  | .rust =>
    ["$(CARGO) build --release", "cp target/release/$(LIB_NAME).$(DYLIB_EXT) $@"]
  | .go => ["$(GO) build -buildmode=c-shared -o $@ ."]

/-- How the static library of a slice of iOS is made. -/
def iosLibrary : Language → List String
  | .c =>
    ["xcrun --sdk $(2) clang -target $(3) $(LIB_C_FLAGS) -c -o $$(dir $$@)impl.o $(IMPL_SOURCES)",
      "xcrun --sdk $(2) clang -target $(3) $(LIB_C_FLAGS) -c -o $$(dir $$@)services.o $(PLATFORM_SERVICES)/ios.c",
      "ar rcs $$@ $$(dir $$@)impl.o $$(dir $$@)services.o"]
  | .cpp =>
    ["xcrun --sdk $(2) clang++ -target $(3) $(LIB_CXX_FLAGS) -c -o $$(dir $$@)impl.o $(GEN_DIR)$(API_NAME)_impl.cpp",
      "xcrun --sdk $(2) clang++ -target $(3) $(LIB_CXX_FLAGS) -c -o $$(dir $$@)shim.o $(GEN_DIR)$(API_NAME)_shim.cpp",
      "xcrun --sdk $(2) clang -target $(3) $(LIB_C_FLAGS) -c -o $$(dir $$@)services.o $(PLATFORM_SERVICES)/ios.c",
      "ar rcs $$@ $$(dir $$@)impl.o $$(dir $$@)shim.o $$(dir $$@)services.o"]
  | .rust =>
    ["$(CARGO) build --release --target $(4)", "cp target/$(4)/release/$(LIB_NAME).a $$@"]
  | .go =>
    ["CGO_ENABLED=1 GOOS=ios GOARCH=$(5) \\",
      "\tCC=\"$$$$(xcrun --sdk $(2) --find clang)\" \\",
      "\tCGO_CFLAGS=\"-target $(3) -isysroot $$$$(xcrun --sdk $(2) --show-sdk-path)\" \\",
      "\tCGO_LDFLAGS=\"-target $(3) -isysroot $$$$(xcrun --sdk $(2) --show-sdk-path)\" \\",
      "\t$(GO) build -buildmode=c-archive -o $$@ ."]

/-- How the shared library of a binary interface of Android is made, with the
bridge linked in. -/
def androidLibrary : Language → List String
  | .c =>
    ["$(NDK_BIN)/$(2)-clang $(LIB_C_FLAGS) -shared -fPIC -o $$@ \\",
      "\t$(IMPL_SOURCES) $(PLATFORM_SERVICES)/android.c $(GEN_JNI_SOURCE) -llog"]
  | .cpp =>
    ["$(NDK_BIN)/$(2)-clang $(LIB_C_FLAGS) -fPIC -c -o $(DIST_DIR)/android/obj/$(1)/services.o $(PLATFORM_SERVICES)/android.c",
      "$(NDK_BIN)/$(2)-clang $(LIB_C_FLAGS) -fPIC -c -o $(DIST_DIR)/android/obj/$(1)/jni.o $(GEN_JNI_SOURCE)",
      "$(NDK_BIN)/$(2)-clang++ $(LIB_CXX_FLAGS) -shared -fPIC -static-libstdc++ -o $$@ \\",
      "\t$(IMPL_SOURCES) $(DIST_DIR)/android/obj/$(1)/services.o $(DIST_DIR)/android/obj/$(1)/jni.o -llog"]
  | .rust =>
    ["PATH=$(NDK_BIN):$$$$PATH $(CARGO) build --release --target $(3)",
      "$(NDK_BIN)/$(2)-clang $(LIB_C_FLAGS) -fPIC -c -o $(DIST_DIR)/android/obj/$(1)/jni.o $(GEN_JNI_SOURCE)",
      "$(NDK_BIN)/$(2)-clang -shared -o $$@ \\",
      "\t-Wl,--whole-archive target/$(3)/release/$(LIB_NAME).a -Wl,--no-whole-archive \\",
      "\t$(DIST_DIR)/android/obj/$(1)/jni.o -ldl -lm -llog"]
  | .go =>
    ["cp $(GEN_JNI_SOURCE) ./$(API_NAME)_jni.c",
      "CGO_ENABLED=1 GOOS=android GOARCH=$(4) $(5) CC=$(NDK_BIN)/$(2)-clang \\",
      "\tCGO_CFLAGS=\"-I$(GEN_DIR)\" $(GO) build -buildmode=c-shared -o $$@ . \\",
      "\t|| (rm -f ./$(API_NAME)_jni.c; exit 1)",
      "rm -f ./$(API_NAME)_jni.c"]

/-- How the WebAssembly module is made. -/
def webModule : Language → List String
  | .c =>
    ["$(EMCC) $(LIB_C_FLAGS) -O2 --no-entry -s STANDALONE_WASM \\",
      "\t-s EXPORTED_FUNCTIONS='$(WASM_EXPORTS)' \\",
      "\t-o $@ $(IMPL_SOURCES) $(PLATFORM_SERVICES)/web.c"]
  | .cpp =>
    ["$(EMCC) $(LIB_C_FLAGS) -c -o $(BUILD_DIR)/web_services.o $(PLATFORM_SERVICES)/web.c",
      "$(EMXX) $(LIB_CXX_FLAGS) -O2 --no-entry -s STANDALONE_WASM \\",
      "\t-s EXPORTED_FUNCTIONS='$(WASM_EXPORTS)' \\",
      "\t-o $@ $(IMPL_SOURCES) $(BUILD_DIR)/web_services.o"]
  | .rust =>
    ["$(CARGO) build --release --target wasm32-unknown-unknown",
      "cp target/wasm32-unknown-unknown/release/$(API_NAME).wasm $@"]
  | .go => ["GOOS=wasip1 GOARCH=wasm $(GO) build -o $@ ."]

/-- The slices of iOS: directory, kit, target of the C compiler, target of Rust,
architecture of Go. -/
def iosSlices : List (List String) :=
  [["ios-arm64", "iphoneos", "arm64-apple-ios$(IOS_MIN)", "aarch64-apple-ios", "arm64"],
    ["ios-sim-arm64", "iphonesimulator", "arm64-apple-ios$(IOS_MIN)-simulator",
      "aarch64-apple-ios-sim", "arm64"],
    ["ios-sim-x86_64", "iphonesimulator", "x86_64-apple-ios$(IOS_MIN)-simulator",
      "x86_64-apple-ios", "amd64"]]

/-- The binary interfaces of Android: name, front of the C compiler, target of Rust,
architecture of Go, further settings of Go. -/
def androidAbis : List (List String) :=
  [["arm64-v8a", "aarch64-linux-android$(ANDROID_MIN_API)", "aarch64-linux-android", "arm64", ""],
    ["armeabi-v7a", "armv7a-linux-androideabi$(ANDROID_MIN_API)", "armv7-linux-androideabi",
      "arm", "GOARM=7"],
    ["x86_64", "x86_64-linux-android$(ANDROID_MIN_API)", "x86_64-linux-android", "amd64", ""],
    ["x86", "i686-linux-android$(ANDROID_MIN_API)", "i686-linux-android", "386", ""]]

end Bindery.Build
